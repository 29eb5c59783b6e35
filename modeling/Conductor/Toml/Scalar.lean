import Conductor.Number.Decimal
import Conductor.Timestamp
import Conductor.Toml.Basic

/-!
# Words and numbers of TOML

What a value without quotation marks and brackets stands for. Such a value is a run of letters,
digits and a few signs, and is read as a whole.

* `Toml.integer?` : an integer of 64 bits, decimal or with one of the marks `0x`, `0o` and `0b`;
* `Toml.float?` : a number with a point or an exponent, an infinity or no number;
* `Toml.dateTime?` : a date, a time of day or both, as text in its usual form;
* `Toml.scalar?` : the value of a run of characters.
-/

namespace Conductor

namespace Toml

open Decimal (isDigit valueOf hexValue)

/-! ### Numbers -/

/-- The characters without underscores, each of which must stand between two digits. -/
def unseparated? (digit : Char → Bool) : List Char → Option (List Char)
  | [] => some []
  | '_' :: _ => none
  | a :: '_' :: b :: rest =>
    if digit a && digit b then (unseparated? digit (b :: rest)).map (a :: ·) else none
  | a :: rest => (unseparated? digit rest).map (a :: ·)
termination_by cs => cs.length

/-- A numeral without needless zeros in front. -/
def isTidy : List Char → Bool
  | [] => false
  | [c] => isDigit c
  | c :: rest => c != '0' && (c :: rest).all isDigit

/-- An integer that has at most 64 bits. -/
def bounded? (n : Int) : Option Int := if Decimal.fitsSigned n then some n else none

/-- The number behind the mark of a base. -/
def based? (base : Nat) (cs : List Char) : Option Int := do
  let n ← Decimal.inBase? base (← unseparated? (fun c => (hexValue c).isSome) cs)
  bounded? n

/-- The integer that a run of characters stands for. -/
def integer? : List Char → Option Int
  | '0' :: 'x' :: cs => based? 16 cs
  | '0' :: 'o' :: cs => based? 8 cs
  | '0' :: 'b' :: cs => based? 2 cs
  | cs => do
    let cs ← unseparated? isDigit cs
    if isTidy (Decimal.takeSign cs).2 then bounded? (← Decimal.integer? cs) else none

/-- The number with a point or an exponent that a run of characters stands for; a number beyond the
greatest one is refused. -/
def decimal? (cs : List Char) : Option Binary.Extended := do
  let p ← Decimal.parts? (← unseparated? isDigit cs)
  let x := p.double
  if !isTidy p.whole || p.fraction == some [] || (p.fraction.isNone && p.exponent.isNone) ||
      x == .infinity false then none
  else return x

/-- The number with a point or an exponent, the infinity or the lack of a number that a run of
characters stands for. -/
def float? (cs : List Char) : Option Binary.Extended :=
  match Decimal.takeSign cs with
  | (negative, ['i', 'n', 'f']) => some (.infinity negative)
  | (_, ['n', 'a', 'n']) => some .nan
  | _ => decimal? cs

/-! ### Dates and times -/

/-- Exactly `n` digits at the start of a list, with their number and the rest. -/
def takeDigits (n : Nat) (cs : List Char) : Option (Nat × List Char) :=
  let ds := cs.take n
  if ds.length = n ∧ ds.all isDigit then some (valueOf ds, cs.drop n) else none

/-- The characters behind a given one. -/
def behind (c : Char) : List Char → Option (List Char)
  | x :: rest => if x = c then some rest else none
  | [] => none

/-- A date at the start of a list. -/
def takeDate (cs : List Char) : Option (Date × List Char) := do
  let (year, cs) ← takeDigits 4 cs
  let (month, cs) ← takeDigits 2 (← behind '-' cs)
  let (day, cs) ← takeDigits 2 (← behind '-' cs)
  let date : Date := ⟨(year : Int), month, day⟩
  if date.Valid then return (date, cs) else none

/-- The hours and minutes at the start of a list. -/
def takeMinutes (cs : List Char) : Option (List Char × List Char) := do
  let (hour, cs) ← takeDigits 2 cs
  let (minute, cs) ← takeDigits 2 (← behind ':' cs)
  if hour < 24 ∧ minute < 60 then
    return (Timestamp.padded 2 hour ++ ':' :: Timestamp.padded 2 minute, cs)
  else none

/-- A list of digits without the zeros at its end. -/
def withoutTail (ds : List Char) : List Char := (ds.reverse.dropWhile (· == '0')).reverse

/-- The fraction of a second at the start of a list; digits beyond the ninth are dropped. -/
def takeFraction : List Char → Option (List Char × List Char)
  | '.' :: cs =>
    let ds := cs.takeWhile isDigit
    let kept := withoutTail (ds.take 9)
    if ds.isEmpty then none
    else some (if kept.isEmpty then [] else '.' :: kept, cs.dropWhile isDigit)
  | cs => some ([], cs)

/-- A time of day at the start of a list. -/
def takeTime (cs : List Char) : Option (List Char × List Char) := do
  let (minutes, cs) ← takeMinutes cs
  let (second, cs) ← takeDigits 2 (← behind ':' cs)
  let (fraction, cs) ← takeFraction cs
  if second ≤ 60 then return (minutes ++ ':' :: Timestamp.padded 2 second ++ fraction, cs)
  else none

/-- The offset from UTC that ends a list, if there is one. An offset of zero has a plus sign. -/
def offset? : List Char → Option (List Char)
  | [] => some []
  | ['Z'] | ['z'] => some ['Z']
  | c :: cs => do
    let (minutes, rest) ← takeMinutes cs
    if !rest.isEmpty then none
    else if c = '+' ∨ (c = '-' ∧ minutes = "00:00".toList) then return '+' :: minutes
    else if c = '-' then return '-' :: minutes
    else none

/-- The text of a date. -/
def dateText (d : Date) : List Char :=
  Timestamp.yearChars d.year ++ '-' :: Timestamp.padded 2 d.month ++
    '-' :: Timestamp.padded 2 d.day

/-- The text of a date, of a time of day or of both. -/
def dateTime? (cs : List Char) : Option (List Char) :=
  match takeDate cs with
  | some (d, []) => some (dateText d)
  | some (d, c :: cs) =>
    if c = 'T' ∨ c = 't' ∨ c = ' ' then do
      let (time, cs) ← takeTime cs
      return dateText d ++ 'T' :: time ++ (← offset? cs)
    else none
  | none => do
    let (time, cs) ← takeTime cs
    if cs.isEmpty then return time else none

/-! ### Runs of characters -/

/-- The character may stand in a value without quotation marks. -/
def isPlain (c : Char) : Bool :=
  isDigit c || ('a' ≤ c && c ≤ 'z') || ('A' ≤ c && c ≤ 'Z') ||
    c == '_' || c == '-' || c == '+' || c == '.' || c == ':'

/-- The value of a run of characters. -/
def scalar? (cs : List Char) : Option Toml :=
  if cs = "true".toList then some (.bool true)
  else if cs = "false".toList then some (.bool false)
  else
    ((dateTime? cs).map fun t => text (String.ofList t)) <|>
      ((float? cs).map float) <|> ((integer? cs).map int)

/-- A value without quotation marks and brackets at the start of a list. One space may stand between
a date and a time. -/
def takeScalar (cs : List Char) : Option (Toml × List Char) :=
  let run := cs.takeWhile isPlain
  let rest := cs.dropWhile isPlain
  match takeDate run, rest with
  | some (_, []), ' ' :: d :: more =>
    if isDigit d then
      let time := (d :: more).takeWhile isPlain
      (scalar? (run ++ ' ' :: time)).map fun v => (v, (d :: more).dropWhile isPlain)
    else (scalar? run).map fun v => (v, rest)
  | _, _ => (scalar? run).map fun v => (v, rest)

end Toml

end Conductor

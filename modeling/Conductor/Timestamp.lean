import Conductor.Json.Format
import Conductor.Text.Blank

/-!
# Timestamps

A point in time as a date and a time of day in UTC. The text of a timestamp is that of RFC 3339;
the reader takes a somewhat wider form: one digit where two are usual, a small `t` or a space
between date and time, white space before a number, any offset.

* `Timestamp.parse` : the timestamp that a text denotes, moved to UTC;
* `Timestamp.render` : its text, with the fewest of 0, 3, 6 or 9 fraction digits that are exact;
* `Timestamp.codec` : its JSON.
-/

namespace Conductor

/-! ### The calendar -/

/-- The year has a 29th of February. -/
def isLeapYear (y : Int) : Bool := y % 4 == 0 && (y % 100 != 0 || y % 400 == 0)

/-- How many days a month has. -/
def daysInMonth (y : Int) (m : Nat) : Nat :=
  if m = 2 then (if isLeapYear y then 29 else 28)
  else if m = 4 ∨ m = 6 ∨ m = 9 ∨ m = 11 then 30
  else 31

/-- A day of the calendar. -/
structure Date where
  year : Int
  month : Nat
  day : Nat
  deriving DecidableEq, Repr, Inhabited

namespace Date

/-- The date stands in the calendar. -/
def Valid (d : Date) : Prop :=
  1 ≤ d.month ∧ d.month ≤ 12 ∧ 1 ≤ d.day ∧ d.day ≤ daysInMonth d.year d.month

instance (d : Date) : Decidable d.Valid := inferInstanceAs (Decidable (_ ∧ _))

/-- The day after. -/
def next (d : Date) : Date :=
  if d.day < daysInMonth d.year d.month then ⟨d.year, d.month, d.day + 1⟩
  else if d.month < 12 then ⟨d.year, d.month + 1, 1⟩
  else ⟨d.year + 1, 1, 1⟩

/-- The day before. -/
def previous (d : Date) : Date :=
  if 1 < d.day then ⟨d.year, d.month, d.day - 1⟩
  else if 1 < d.month then ⟨d.year, d.month - 1, daysInMonth d.year (d.month - 1)⟩
  else ⟨d.year - 1, 12, 31⟩

end Date

/-- A point in time; a second may be the sixtieth, a leap second. -/
structure Timestamp where
  date : Date
  hour : Nat
  minute : Nat
  second : Nat
  nanos : Nat
  valid : date.Valid ∧ hour < 24 ∧ minute < 60 ∧ second ≤ 60 ∧ nanos < 1000000000
  deriving DecidableEq, Repr

namespace Timestamp

open Decimal (isDigit valueOf)

/-- The first moment of 1970. -/
def epoch : Timestamp := ⟨⟨1970, 1, 1⟩, 0, 0, 0, 0, by decide⟩

instance : Inhabited Timestamp := ⟨epoch⟩

/-! ### Reading -/

/-- Why a text is no timestamp. -/
inductive Fault where
  | tooShort
  | tooLong
  | invalid
  | outOfRange
  | impossible
  deriving DecidableEq, Repr

/-- The wording of a fault. -/
def Fault.message : Fault → String
  | .tooShort => "premature end of input"
  | .tooLong => "trailing input"
  | .invalid => "input contains invalid characters"
  | .outOfRange => "input is out of range"
  | .impossible => "no possible date and time matching input"

/-- A number of at most `width` digits at the start of a text, with its digits and the rest. -/
def takeNumber (width : Nat) (cs : List Char) : Except Fault (List Char × List Char) :=
  let ds := (cs.take width).takeWhile isDigit
  match cs, ds with
  | [], _ => .error .tooShort
  | _, [] => .error .invalid
  | _, _ => .ok (ds, cs.drop ds.length)

/-- A number in a range, after white space. -/
def takeField (width low high : Nat) (cs : List Char) : Except Fault (Nat × List Char) := do
  let (ds, rest) ← takeNumber width (Text.trimStartChars cs)
  let n := valueOf ds
  if low ≤ n ∧ n ≤ high then return (n, rest) else throw .outOfRange

/-- A year: four digits, or a sign and any number of digits. -/
def takeYear (cs : List Char) : Except Fault (Int × List Char) := do
  match Text.trimStartChars cs with
  | '-' :: rest => do
    let (ds, rest) ← takeNumber rest.length rest
    if valueOf ds ≤ Nat.pow 2 31 then return (-(valueOf ds : Int), rest) else throw .outOfRange
  | '+' :: rest => do
    let (ds, rest) ← takeNumber rest.length rest
    if valueOf ds < Nat.pow 2 31 then return ((valueOf ds : Int), rest) else throw .outOfRange
  | cs => do
    let (ds, rest) ← takeNumber 4 cs
    return ((valueOf ds : Int), rest)

/-- A mark between two numbers, after white space. -/
def takeMark (mark : Char) (cs : List Char) : Except Fault (List Char) :=
  match Text.trimStartChars cs with
  | [] => .error .tooShort
  | c :: rest => if c = mark then .ok rest else .error .invalid

/-- The fraction of a second in nanoseconds; digits beyond the ninth are passed over. -/
def takeFraction (cs : List Char) : Except Fault (Nat × List Char) :=
  match cs with
  | '.' :: rest => do
    let (ds, rest) ← takeNumber 9 rest
    return (valueOf ds * Nat.pow 10 (9 - ds.length), rest.dropWhile isDigit)
  | cs => .ok (0, cs)

/-- The minutes of an offset of two pairs of digits, without its sign. -/
def takeOffset (cs : List Char) : Except Fault (Nat × List Char) :=
  match cs with
  | a :: b :: rest =>
    if isDigit a && isDigit b then
      match rest.dropWhile fun c => c == ':' || Text.isBlank c with
      | c :: d :: rest =>
        if isDigit c && isDigit d then
          if c ≤ '5' then .ok (valueOf [a, b] * 60 + valueOf [c, d], rest) else .error .outOfRange
        else .error .invalid
      | _ => .error .tooShort
    else .error .invalid
  | _ => .error .tooShort

/-- The offset from UTC in minutes. -/
def takeZone (cs : List Char) : Except Fault (Int × List Char) :=
  match cs with
  | 'Z' :: rest | 'z' :: rest => .ok (0, rest)
  | '+' :: rest => do
    let (n, rest) ← takeOffset rest
    return ((n : Int), rest)
  | '-' :: rest | '−' :: rest => do
    let (n, rest) ← takeOffset rest
    return (-(n : Int), rest)
  | u :: t :: c :: rest =>
    if (u == 'u' || u == 'U') && (t == 't' || t == 'T') && (c == 'c' || c == 'C') then
      .ok (0, rest)
    else .error .invalid
  | [] => .error .tooShort
  | _ => .error .invalid

/-- The letter or space between date and time. -/
def takeSeparator (cs : List Char) : Except Fault (List Char) :=
  match cs with
  | 't' :: rest | 'T' :: rest | ' ' :: rest => .ok rest
  | [] => .error .tooShort
  | _ => .error .invalid

/-- The years that a timestamp may have. -/
def inYears (y : Int) : Bool := -262143 ≤ y && y ≤ 262142

/-- The date and the minute of the day, moved by less than a day. -/
def shift (date : Date) (minutes : Int) : Date × Int :=
  if minutes < 0 then (date.previous, minutes + 1440)
  else if 1440 ≤ minutes then (date.next, minutes - 1440)
  else (date, minutes)

/-- The timestamp that a list of characters denotes. -/
def ofChars (cs : List Char) : Except Fault Timestamp := do
  let (year, cs) ← takeYear cs
  let cs ← takeMark '-' cs
  let (month, cs) ← takeField 2 1 12 cs
  let cs ← takeMark '-' cs
  let (day, cs) ← takeField 2 1 31 cs
  let cs ← takeSeparator cs
  let (hour, cs) ← takeField 2 0 23 cs
  let cs ← takeMark ':' cs
  let (minute, cs) ← takeField 2 0 59 cs
  let cs ← takeMark ':' cs
  let (second, cs) ← takeField 2 0 60 cs
  let (nanos, cs) ← takeFraction cs
  let (offset, cs) ← takeZone (Text.trimStartChars cs)
  if !(Text.trimStartChars cs).isEmpty then throw .tooLong
  if !(inYears year) || 1440 ≤ offset.natAbs || ¬ (Date.mk year month day).Valid then
    throw .outOfRange
  let (date, minutes) := shift ⟨year, month, day⟩ ((hour * 60 + minute : Nat) - offset)
  if !inYears date.year then throw .impossible
  let hour := minutes.toNat / 60
  let minute := minutes.toNat % 60
  if h : date.Valid ∧ hour < 24 ∧ minute < 60 ∧ second ≤ 60 ∧ nanos < 1000000000 then
    return ⟨date, hour, minute, second, nanos, h⟩
  else throw .impossible

/-- The timestamp that a text denotes. -/
def parse (s : String) : Except Fault Timestamp := ofChars s.toList

/-! ### Writing -/

/-- A number with at least `width` digits. -/
def padded (width n : Nat) : List Char :=
  let ds := Nat.toDigits 10 n
  List.replicate (width - ds.length) '0' ++ ds

/-- A year: four digits, or a sign and at least four digits. -/
def yearChars (y : Int) : List Char :=
  if 0 ≤ y ∧ y ≤ 9999 then padded 4 y.toNat
  else (if y < 0 then '-' else '+') :: padded 4 y.natAbs

/-- The fraction of a second, with the fewest groups of three digits that are exact. -/
def fractionChars (n : Nat) : List Char :=
  if n = 0 then []
  else if n % 1000000 = 0 then '.' :: padded 3 (n / 1000000)
  else if n % 1000 = 0 then '.' :: padded 6 (n / 1000)
  else '.' :: padded 9 n

/-- The characters of a timestamp. -/
def toChars (t : Timestamp) : List Char :=
  yearChars t.date.year ++ '-' :: padded 2 t.date.month ++ '-' :: padded 2 t.date.day ++
    'T' :: padded 2 t.hour ++ ':' :: padded 2 t.minute ++ ':' :: padded 2 t.second ++
    fractionChars t.nanos ++ ['Z']

/-- The text of a timestamp. -/
def render (t : Timestamp) : String := String.ofList t.toChars

open Json

/-- The JSON of a timestamp. -/
def codec : Codec Timestamp where
  format := .text "an RFC 3339 formatted date and time string" fun s =>
    match parse s with
    | .ok _ => .ok ()
    | .error e => .error e.message
  encode t := .string t.render
  decode? j := do (parse (← j.text?)).toOption

end Timestamp

end Conductor

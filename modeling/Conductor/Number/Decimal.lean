import Conductor.Number.Binary

/-!
# Decimal numerals

Reading of numbers that are written with digits. The readers take a whole list of characters, so
that white space or any other character around a numeral refuses it.

* `isDigit`, `hexValue` : the digits, and the value of a hexadecimal one;
* `valueOf` : the natural number of a list of digits;
* `natural?`, `integer?` : the number of a numeral without a point;
* `double?` : the binary number of a numeral with or without point and exponent, or of one of the
  words for infinity and for no number.
-/

namespace Conductor

namespace Decimal

/-! ### Digits -/

/-- The character is one of the ten digits. -/
def isDigit (c : Char) : Bool := '0' ≤ c && c ≤ '9'

/-- The natural number of a list of digits. -/
def valueOf (ds : List Char) : Nat := ds.foldl (fun n c => n * 10 + (c.toNat - 48)) 0

/-- The value of a hexadecimal digit. -/
def hexValue (c : Char) : Option Nat :=
  if '0' ≤ c ∧ c ≤ '9' then some (c.toNat - 48)
  else if 'a' ≤ c ∧ c ≤ 'f' then some (c.toNat - 87)
  else if 'A' ≤ c ∧ c ≤ 'F' then some (c.toNat - 55)
  else none

/-- The number of at least one digit in a base of at most sixteen. -/
def inBase? (base : Nat) (ds : List Char) : Option Nat :=
  if ds.isEmpty then none
  else ds.foldlM (fun n c => do
    let d ← hexValue c
    if d < base then some (n * base + d) else none) 0

/-- A sign, and whether it is a minus. -/
def takeSign : List Char → Bool × List Char
  | '-' :: rest => (true, rest)
  | '+' :: rest => (false, rest)
  | cs => (false, cs)

/-! ### Whole numbers -/

/-- The number of at least one digit. -/
def digits? (ds : List Char) : Option Nat :=
  if ds.isEmpty || !ds.all isDigit then none else some (valueOf ds)

/-- A natural number, before which a plus sign may stand. -/
def natural? : List Char → Option Nat
  | '+' :: ds => digits? ds
  | ds => digits? ds

/-- An integer, before which a sign may stand. -/
def integer? (cs : List Char) : Option Int := do
  let (negative, ds) := takeSign cs
  let n ← digits? ds
  return if negative then -(n : Int) else n

/-- The integer has at most 64 bits with its sign. -/
def fitsSigned (n : Int) : Bool := -(Nat.pow 2 63 : Int) ≤ n && n < Nat.pow 2 63

/-! ### Numbers with a point -/

/-- A numeral taken apart. -/
structure Parts where
  negative : Bool
  /-- The digits before the point. -/
  whole : List Char
  /-- The digits after the point, if there is one. -/
  fraction : Option (List Char)
  /-- The exponent, if there is one. -/
  exponent : Option Int

/-- The exponent of a numeral, with its letter. -/
def exponent? : List Char → Option (Option Int)
  | [] => some none
  | c :: rest => if c = 'e' ∨ c = 'E' then (integer? rest).map some else none

/-- The parts of a numeral; digits may be missing on either side of the point. -/
def parts? (cs : List Char) : Option Parts := do
  let (negative, body) := takeSign cs
  let whole := body.takeWhile isDigit
  match body.dropWhile isDigit with
  | '.' :: rest =>
    return ⟨negative, whole, some (rest.takeWhile isDigit),
      ← exponent? (rest.dropWhile isDigit)⟩
  | rest => return ⟨negative, whole, none, ← exponent? rest⟩

/-- The binary number nearest to a numeral. -/
def Parts.double (p : Parts) : Binary.Extended :=
  let fraction := p.fraction.getD []
  Binary.double.ofDecimal p.negative (valueOf (p.whole ++ fraction))
    (p.exponent.getD 0 - (fraction.length : Int))

/-- The letters in small form, of ASCII. -/
def smallLetters (cs : List Char) : String := (String.ofList cs).map Char.toLower

/-- The number of a numeral with at least one digit before or after the point, or of a word. -/
def double? (cs : List Char) : Option Binary.Extended :=
  let (negative, word) := takeSign cs
  match smallLetters word with
  | "inf" | "infinity" => some (.infinity negative)
  | "nan" => some .nan
  | _ => do
    let p ← parts? cs
    if p.whole.isEmpty ∧ (p.fraction.getD []).isEmpty then none else some p.double

end Decimal

end Conductor

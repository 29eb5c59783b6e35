/-!
# Binary floating-point numbers

A finite binary number is a sign, a significand and a power of two. Rounding is done exactly, on a
quotient of natural numbers, to the nearest number of a format; a tie goes to the even significand.

* `roundDiv` : the integer nearest to a quotient;
* `Format.round` : the nearest number of a format to a signed quotient;
* `Format.ofDecimal` : the number that a decimal numeral denotes;
* `Finite.toRat` : the value of a finite number, in which two of them are compared.
-/

namespace Conductor

namespace Binary

/-- The numbers `m * 2 ^ e` with `m < 2 ^ precision` and `least ≤ e ≤ greatest`. -/
structure Format where
  precision : Nat
  least : Int
  greatest : Int
  deriving DecidableEq, Repr

/-- Numbers of 64 bits. -/
def double : Format := ⟨53, -1074, 971⟩

/-- Numbers of 32 bits. -/
def single : Format := ⟨24, -149, 104⟩

/-- The number `significand * 2 ^ exponent`, negated when `negative`; zero keeps its sign. -/
structure Finite where
  negative : Bool
  significand : Nat
  exponent : Int
  deriving DecidableEq, Repr, Inhabited

/-- A number, an infinity or no number at all. -/
inductive Extended where
  | finite (x : Finite)
  | infinity (negative : Bool)
  | nan
  deriving DecidableEq, Repr, Inhabited

/-! ### Values -/

namespace Finite

/-- The zero of a format, with either sign. -/
def zero (f : Format) (negative : Bool) : Finite := ⟨negative, 0, f.least⟩

/-- The magnitude as a quotient of natural numbers. -/
def ratio (x : Finite) : Nat × Nat :=
  if 0 ≤ x.exponent then (x.significand * Nat.pow 2 x.exponent.toNat, 1)
  else (x.significand, Nat.pow 2 (-x.exponent).toNat)

/-- The value of a finite number. -/
def toRat (x : Finite) : Rat :=
  let (num, den) := x.ratio
  mkRat (if x.negative then -(num : Int) else num) den

/-- The number has no fractional part. -/
def isIntegral (x : Finite) : Bool :=
  let (num, den) := x.ratio
  num % den == 0

end Finite

/-! ### Rounding -/

/-- The natural number nearest to `num / den`; a half goes to the even neighbour. -/
def roundDiv (num den : Nat) : Nat :=
  let q := num / den
  let r := num % den
  if 2 * r < den then q else if den < 2 * r then q + 1 else q + q % 2

/-- The quotient `num / den` counted in units of `2 ^ e`. -/
def inUnits (num den : Nat) (e : Int) : Nat × Nat :=
  if 0 ≤ e then (num, den * Nat.pow 2 e.toNat) else (num * Nat.pow 2 (-e).toNat, den)

namespace Format

variable (f : Format)

/-- The exponent of the unit in which `num / den` is rounded: the significand then has exactly
`precision` bits, or the unit is the least one. -/
def unit (num den : Nat) : Int :=
  let low : Int := (num.log2 : Int) - (den.log2 : Int) - (f.precision : Int)
  let (n, d) := inUnits num den low
  max (if Nat.pow 2 f.precision ≤ n / d then low + 1 else low) f.least

/-- The number nearest to `num / den` with the given sign; beyond the greatest number, infinity. -/
def round (negative : Bool) (num den : Nat) : Extended :=
  if num = 0 then .finite (.zero f negative)
  else
    let e := f.unit num den
    let (n, d) := inUnits num den e
    let m := roundDiv n d
    let x : Finite :=
      if m = Nat.pow 2 f.precision then ⟨negative, Nat.pow 2 (f.precision - 1), e + 1⟩ else ⟨negative, m, e⟩
    if f.greatest < x.exponent then .infinity negative else .finite x

/-- The number nearest to a rational one. -/
def ofRat (q : Rat) : Extended := f.round (decide (q < 0)) q.num.natAbs q.den

/-- The number nearest to an integer. -/
def ofInt (n : Int) : Extended := f.round (decide (n < 0)) n.natAbs 1

/-- The number nearest to `digits * 10 ^ exponent`. A magnitude that is far outside every format is
settled by its order of magnitude alone. -/
def ofDecimal (negative : Bool) (digits : Nat) (exponent : Int) : Extended :=
  if digits = 0 then .finite (.zero f negative)
  else
    let order : Int := exponent + ((Nat.toDigits 10 digits).length : Int)
    if 400 < order then .infinity negative
    else if order < -400 then .finite (.zero f negative)
    else if 0 ≤ exponent then f.round negative (digits * Nat.pow 10 exponent.toNat) 1
    else f.round negative digits (Nat.pow 10 (-exponent).toNat)

/-- The number of this format nearest to a finite number of another one. -/
def ofFinite (x : Finite) : Extended :=
  let (num, den) := x.ratio
  f.round x.negative num den

/-- A number of another format, rounded to this one. -/
def ofExtended : Extended → Extended
  | .finite x => f.ofFinite x
  | x => x

end Format

end Binary

end Conductor

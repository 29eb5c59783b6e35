import Conductor.Number.Binary

/-!
# Shortest decimal numerals

The numeral of a binary number is the shortest one that reads back as that number; among the
shortest ones it is the nearest. `shortest` tries one digit, then two, and so on, and looks only at
the two neighbours of the number on each decimal grid, in exact arithmetic on natural numbers.

* `shortest` : the digits and their decimal exponent;
* `render` : positional notation between `0.00001` and `10 ^ 16`, else an exponent;
* `renderPlain` : positional notation always, without a fraction when there is none.
-/

namespace Conductor

namespace Binary

/-- The numeral `digits * 10 ^ exponent`. -/
structure Numeral where
  digits : Nat
  exponent : Int
  deriving DecidableEq, Repr, Inhabited

/-- How many decimal digits a natural number has. -/
def decimalLength (n : Nat) : Nat := (Nat.toDigits 10 n).length

/-- The greatest `k` with `10 ^ k ≤ num / den`. -/
def decimalOrder (num den : Nat) : Int :=
  if den ≤ num then (decimalLength (num / den) : Int) - 1
  else -(decimalLength ((den - 1) / num) : Int)

/-- The numbers that round to one binary number: from `low / den` to `high / den`, around
`mid / den`, with both ends when `closed`. -/
structure Interval where
  low : Nat
  mid : Nat
  high : Nat
  den : Nat
  closed : Bool

/-- The interval of a number: half a unit on either side, and only a quarter below when the
significand is the least one of its width. -/
def Format.interval (f : Format) (x : Finite) : Interval :=
  let narrow := x.significand == Nat.pow 2 (f.precision - 1) && decide (f.least < x.exponent)
  let e := x.exponent - 2
  let scale := if 0 ≤ e then Nat.pow 2 e.toNat else 1
  let den := if 0 ≤ e then 1 else Nat.pow 2 (-e).toNat
  ⟨(4 * x.significand - (if narrow then 1 else 2)) * scale, 4 * x.significand * scale,
    (4 * x.significand + 2) * scale, den, x.significand % 2 == 0⟩

/-- The neighbour of the middle on the grid `10 ^ k` that lies in the interval; of two the nearer,
and of two equally near ones the even one. -/
def Interval.onGrid (i : Interval) (k : Int) : Option Numeral :=
  let up := if 0 ≤ k then Nat.pow 10 k.toNat else 1
  let down := if 0 ≤ k then 1 else Nat.pow 10 (-k).toNat
  let step := up * i.den
  let below := i.mid * down / step
  let above := below + 1
  let hitsBelow :=
    if i.closed then decide (i.low * down ≤ below * step) else decide (i.low * down < below * step)
  let hitsAbove :=
    if i.closed then decide (above * step ≤ i.high * down)
    else decide (above * step < i.high * down)
  let toBelow := i.mid * down - below * step
  let toAbove := above * step - i.mid * down
  let nearer :=
    if toBelow < toAbove then below
    else if toAbove < toBelow then above
    else if below % 2 = 0 then below else above
  match hitsBelow, hitsAbove with
  | true, true => some ⟨nearer, k⟩
  | true, false => some ⟨below, k⟩
  | false, true => some ⟨above, k⟩
  | false, false => none

/-- The numeral without trailing zeros; fuel bounds how many are dropped. -/
def Numeral.trimmed (n : Numeral) : Nat → Numeral
  | 0 => n
  | fuel + 1 =>
    if n.digits ≠ 0 ∧ n.digits % 10 = 0 then Numeral.trimmed ⟨n.digits / 10, n.exponent + 1⟩ fuel
    else n

/-- The shortest numeral that reads back as `x`; seventeen digits always suffice. -/
def Format.shortest (f : Format) (x : Finite) : Numeral :=
  if x.significand = 0 then ⟨0, 0⟩
  else
    let i := f.interval x
    let order := decimalOrder i.mid i.den
    let found := (List.range 17).findSome? fun (n : Nat) => i.onGrid (order - (n : Int))
    (found.getD ⟨0, 0⟩).trimmed 20

/-! ### Notation -/

/-- `digits * 10 ^ exponent` in positional notation: the part before the point and the one after. -/
def Numeral.positional (n : Numeral) : String × String :=
  let ds := Nat.toDigits 10 n.digits
  if 0 ≤ n.exponent then (String.ofList (ds ++ List.replicate n.exponent.toNat '0'), "")
  else
    let places := (-n.exponent).toNat
    if ds.length ≤ places then ("0", String.ofList (List.replicate (places - ds.length) '0' ++ ds))
    else (String.ofList (ds.take (ds.length - places)), String.ofList (ds.drop (ds.length - places)))

/-- One digit, the others after a point, and the exponent with its sign. -/
def Numeral.scientific (n : Numeral) : String :=
  let ds := Nat.toDigits 10 n.digits
  let e : Int := n.exponent + (ds.length : Int) - 1
  let rest := ds.drop 1
  String.ofList (ds.take 1 ++ (if rest.isEmpty then [] else '.' :: rest))
    ++ (if e < 0 then "e-" else "e+") ++ toString e.natAbs

/-- A minus sign for a negative number, zero included. -/
def sign (x : Finite) : String := if x.negative then "-" else ""

/-- Positional notation with at least one fraction digit from `0.00001` to below `10 ^ 16`, and an
exponent outside that range. -/
def Format.render (f : Format) (x : Finite) : String :=
  let n := f.shortest x
  let point : Int := n.exponent + (decimalLength n.digits : Int)
  sign x ++
    if x.significand = 0 then "0.0"
    else if -5 < point ∧ point ≤ 16 then
      let (whole, fraction) := n.positional
      whole ++ "." ++ (if fraction.isEmpty then "0" else fraction)
    else n.scientific

/-- Positional notation with only the fraction digits that the number needs. -/
def Format.renderPlain (f : Format) : Extended → String
  | .nan => "NaN"
  | .infinity negative => if negative then "-inf" else "inf"
  | .finite x =>
    let (whole, fraction) := (f.shortest x).positional
    sign x ++ whole ++ (if fraction.isEmpty then "" else "." ++ fraction)

end Binary

end Conductor

import Conductor.Json.Format

/-!
# Durations

A length of time, counted in nanoseconds. Written as JSON it is a number of whole seconds and the
nanoseconds beyond them.

* `Duration.codec` : the JSON of a duration; nanoseconds beyond a second are carried;
* `Duration.millisUp` : the milliseconds that a clock with that step has to tick.
-/

namespace Conductor

/-- A length of time. -/
structure Duration where
  /-- The whole length in nanoseconds. -/
  nanos : Nat
  deriving DecidableEq, Repr, Inhabited

namespace Duration

/-- Nanoseconds in a second. -/
def perSecond : Nat := 1000000000

/-- No time at all. -/
def zero : Duration := ⟨0⟩

/-- A number of seconds. -/
def seconds (n : Nat) : Duration := ⟨n * perSecond⟩

/-- A number of milliseconds. -/
def millis (n : Nat) : Duration := ⟨n * 1000000⟩

instance : LE Duration := ⟨fun a b => a.nanos ≤ b.nanos⟩

instance : LT Duration := ⟨fun a b => a.nanos < b.nanos⟩

instance (a b : Duration) : Decidable (a ≤ b) := inferInstanceAs (Decidable (a.nanos ≤ b.nanos))

instance (a b : Duration) : Decidable (a < b) := inferInstanceAs (Decidable (a.nanos < b.nanos))

/-- The longer of two durations. -/
instance : Max Duration := ⟨fun a b => ⟨Nat.max a.nanos b.nanos⟩⟩

/-- The whole seconds. -/
def wholeSeconds (d : Duration) : Nat := d.nanos / perSecond

/-- The nanoseconds beyond the whole seconds. -/
def subsecond (d : Duration) : Nat := d.nanos % perSecond

/-- The whole milliseconds. -/
def wholeMillis (d : Duration) : Nat := d.nanos / 1000000

/-- The milliseconds until a clock that ticks once a millisecond has passed the duration. -/
def millisUp (d : Duration) : Nat := (d.nanos + 999999) / 1000000

open Json

/-- The seconds and nanoseconds of a record, with the carry. -/
def carry (j : Json) : Except String Json :=
  match j.part? "secs" nat?, j.part? "nanos" nat? with
  | some s, some n =>
    if s + n / perSecond < Nat.pow 2 64 then
      .ok (.object [("secs", .nat (s + n / perSecond)), ("nanos", .nat (n % perSecond))])
    else .error "overflow deserializing Duration"
  | _, _ => .ok j

/-- The JSON of a duration. -/
def codec : Codec Duration where
  format := .record "Duration" true
    [("secs", .required, .u64), ("nanos", .required, .u32)] carry
  encode d := .object [("secs", .nat d.wholeSeconds), ("nanos", .nat d.subsecond)]
  decode? j := do
    return ⟨(← j.part? "secs" nat?) * perSecond + (← j.part? "nanos" nat?)⟩

end Duration

end Conductor

import Conductor.Json.Printer
import Conductor.Path
import Conductor.Schema.Basic

/-!
# Violations

Where and how a value breaks a rule of a schema.

* `Violation.text` : the wording of a violation;
* `Violation.message` : the same with the place, as a JSON pointer.
-/

namespace Conductor

/-- How a value breaks a rule. -/
inductive Breach where
  | type (value : Json) (types : List JsonType)
  | enum (value : Json) (values : List Json)
  | const (value : Json)
  | bound (b : Bound) (value : Number) (limit : Number)
  | tooMuch (e : Extent) (value : Json) (limit : Nat)
  | tooLittle (e : Extent) (value : Json) (limit : Nat)
  | missing (key : String)
  | unexpected (keys : List String)
  | refused (value : Json)
  | noAlternative (value : Json)
  | repeated (value : Json)

/-- A breach and the place of the value. -/
structure Violation where
  path : Path
  breach : Breach

/-- A number of things. -/
def counted (n : Nat) (one many : String) : String :=
  toString n ++ " " ++ (if n = 1 then one else many)

/-- The two words of a comparison of sizes and the name of what is counted. -/
def Extent.words : Extent → (String × String) × (String × String)
  | .items => (("has less than ", "has more than "), ("item", "items"))
  | .characters => (("is shorter than ", "is longer than "), ("character", "characters"))
  | .members => (("has less than ", "has more than "), ("property", "properties"))

/-- What a message says about a bound. -/
def Bound.phrase : Bound → String
  | .minimum => " is less than the minimum of "
  | .maximum => " is greater than the maximum of "
  | .exclusiveMinimum => " is less than or equal to the minimum of "
  | .exclusiveMaximum => " is greater than or equal to the maximum of "

/-- A word between double quotation marks. -/
def quoted (s : String) : String := "\"" ++ s ++ "\""

/-- The wording of a breach. -/
def Breach.text : Breach → String
  | .type v ts =>
    let names := (JsonType.all.filter ts.contains).map fun t => quoted t.name
    v.compact ++ (if names.length = 1 then " is not of type " else " is not of types ") ++
      ", ".intercalate names
  | .enum v vs => v.compact ++ " is not one of " ++ (Json.array vs).compact
  | .const v => v.compact ++ " was expected"
  | .bound b v limit => v.render ++ b.phrase ++ limit.render
  | .tooMuch e v n => v.compact ++ " " ++ e.words.1.2 ++ counted n e.words.2.1 e.words.2.2
  | .tooLittle e v n => v.compact ++ " " ++ e.words.1.1 ++ counted n e.words.2.1 e.words.2.2
  | .missing k => (Json.string k).compact ++ " is a required property"
  | .unexpected ks =>
    "Additional properties are not allowed (" ++
      ", ".intercalate (ks.map fun k => "'" ++ k ++ "'") ++
      (if ks.length = 1 then " was" else " were") ++ " unexpected)"
  | .refused v => "False schema does not allow " ++ v.compact
  | .noAlternative v =>
    v.compact ++ " is not valid under any of the schemas listed in the 'anyOf' keyword"
  | .repeated v => v.compact ++ " has non-unique elements"

/-- The wording of a violation. -/
def Violation.text (v : Violation) : String := v.breach.text

/-- The wording of a violation with its place. -/
def Violation.message (v : Violation) : String :=
  "at '" ++ v.path.pointer ++ "': " ++ v.text

end Conductor

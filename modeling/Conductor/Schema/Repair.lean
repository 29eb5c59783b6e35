import Conductor.Schema.Document

/-!
# Repair of outputs

An object that lacks exactly one required member, and has exactly one that is not declared, is
repaired by giving the one the name of the other, if that makes it conform. A validator says whether
it does, by its violations of a schema document by a value.

* `Json.repairedUnder?`, `Json.repaired?` : the repaired object, under any validator and under the
  one in use.
-/

namespace Conductor

namespace Json

/-- The keys that a schema document requires. -/
def requiredKeys (schema : Json) : List String :=
  ((schema.part? "required" items?).getD []).filterMap text?

/-- The members with one key in place of another. -/
def renamed (ms : List (String × Json)) (old new : String) : List (String × Json) :=
  match ms.lookup old with
  | some v => insertByKey new v (ms.filter fun m => m.1 != old)
  | none => ms

/-- The object with its one undeclared member under the one missing name. -/
def repairedUnder? (violations : Json → Json → List String) (raw schema : Json) :
    Option Json := do
  let ms ← raw.members?
  let declared ← schema.part? "properties" members?
  let missing := schema.requiredKeys.filter fun k => !(ms.lookup k).isSome
  let undeclared := (ms.map (·.1)).filter fun k => !(declared.lookup k).isSome
  match missing, undeclared with
  | [new], [old] =>
    let fixed := Json.object (renamed ms old new)
    if (violations schema fixed).isEmpty then some fixed else none
  | _, _ => none

/-- The object repaired under the validator in use. -/
def repaired? (raw schema : Json) : Option Json := raw.repairedUnder? violationsOf schema

end Json

end Conductor

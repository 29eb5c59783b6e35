import Conductor.Schema.Check

/-!
# Schema documents

A schema is written as a JSON document, which must itself have a certain form. A document without
that form is reported by its first breach: first in the schemas inside it, then in its own
keywords.

* `Schema.flaw?` : the first breach of the form of a schema;
* `Json.violationsOf` : the messages about a value under a schema document.
-/

namespace Conductor

namespace Schema

/-- The breach of a value that must be a number from zero up and an integer. -/
def countFlaw? (v : Json) : Option Breach :=
  (Bound.breach? .minimum (.int 0) v).or
    (if JsonType.integer.holds v then none else some (.type v [.integer]))

/-- The breach of a value that must be of one of some types. -/
def typeFlaw? (types : List JsonType) (v : Json) : Option Breach :=
  if types.any (·.holds v) then none else some (.type v types)

/-- The items of a list are different values. -/
def allDistinct : List Json → Bool
  | [] => true
  | x :: xs => !xs.any x.alike && allDistinct xs

/-- The breach of a value that must be a list of different texts. -/
def namesFlaw? (v : Json) : Option Breach :=
  match v with
  | .array xs =>
    (xs.findSome? (typeFlaw? [.string])).or
      (if allDistinct xs then none else some (.repeated v))
  | v => typeFlaw? [.array] v

/-- The value is the name of a type. -/
def isTypeName (v : Json) : Bool := ((v.text? >>= JsonType.ofName?).map fun _ => true).getD false

/-- The breach of a value that must be a name of a type or a list of such names. -/
def typesFlaw? (v : Json) : Option Breach :=
  let good := match v with
    | .array xs => !xs.isEmpty && xs.all isTypeName && allDistinct xs
    | v => isTypeName v
  if good then none else some (.noAlternative v)

/-- The breach of the value of a keyword that holds no schema. -/
def keywordFlaw? (key : String) (v : Json) : Option Breach :=
  match key with
  | "enum" => typeFlaw? [.array] v
  | "exclusiveMaximum" | "exclusiveMinimum" | "maximum" | "minimum" => typeFlaw? [.number] v
  | "maxItems" | "maxLength" | "maxProperties" | "minItems" | "minLength" | "minProperties" =>
    countFlaw? v
  | "required" => namesFlaw? v
  | "type" => typesFlaw? v
  | _ => none

/-- The breach of the value of an annotation. -/
def annotationFlaw? (key : String) (v : Json) : Option Breach :=
  match key with
  | "deprecated" | "readOnly" | "writeOnly" => typeFlaw? [.boolean] v
  | "description" | "title" => typeFlaw? [.string] v
  | "examples" => typeFlaw? [.array] v
  | _ => none

mutual

/-- The first breach of the form of a schema. -/
def flaw? : Json → Option Breach
  | .bool _ => none
  | .object ms =>
    ((ms.findSome? fun (k, v) => if k = "$comment" then typeFlaw? [.string] v else none).or
      (innerFlaw? ms)).or
      ((ms.findSome? fun (k, v) => keywordFlaw? k v).or
        (ms.findSome? fun (k, v) => annotationFlaw? k v))
  | v => some (.type v [.boolean, .object])

/-- The first breach in the schemas inside a document. -/
def innerFlaw? : List (String × Json) → Option Breach
  | [] => none
  | (k, v) :: rest =>
    (if k = "additionalProperties" ∨ k = "items" then flaw? v
      else if k = "properties" then tableFlaw? v
      else none).or (innerFlaw? rest)

/-- The first breach in an object of schemas. -/
def tableFlaw? : Json → Option Breach
  | .object ms => memberFlaw? ms
  | v => some (.type v [.object])

/-- The first breach in a list of named schemas. -/
def memberFlaw? : List (String × Json) → Option Breach
  | [] => none
  | (_, v) :: rest => (flaw? v).or (memberFlaw? rest)

end

end Schema

/-- The messages about a value under a schema document: those about the document, if it is none, or
those about the value. -/
def Json.violationsOf (schema value : Json) : List String :=
  match Schema.flaw? schema with
  | some b => ["invalid JSON Schema document: " ++ b.text]
  | none => ((Schema.ofJson schema).violations value).map Violation.message

end Conductor

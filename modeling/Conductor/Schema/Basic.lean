import Conductor.Json.Basic

/-!
# Schemas

A schema says which JSON values are accepted. It is a constant or a list of rules, and a value is
accepted when it breaks none of them. A rule about objects, arrays, texts or numbers holds of every
value of another type.

* `Schema`, `Rule` : schemas and their rules;
* `Schema.ofJson` : the schema of a JSON document;
* `JsonType.holds` : the types of values.
-/

namespace Conductor

/-- The types of JSON values, in the order in which a message lists them. -/
inductive JsonType where
  | array
  | boolean
  | integer
  | null
  | number
  | object
  | string
  deriving DecidableEq, Repr, Inhabited

namespace JsonType

/-- All types. -/
def all : List JsonType := [.array, .boolean, .integer, .null, .number, .object, .string]

/-- The word for a type. -/
def name : JsonType → String
  | .array => "array"
  | .boolean => "boolean"
  | .integer => "integer"
  | .null => "null"
  | .number => "number"
  | .object => "object"
  | .string => "string"

/-- The type that a word stands for. -/
def ofName? (s : String) : Option JsonType := all.find? fun t => t.name == s

/-- A value is of a type. A number without a fractional part is an integer. -/
def holds : JsonType → Json → Bool
  | .array, .array _ => true
  | .boolean, .bool _ => true
  | .integer, .number n => n.isIntegral
  | .null, .null => true
  | .number, .number _ => true
  | .object, .object _ => true
  | .string, .string _ => true
  | _, _ => false

end JsonType

/-- What is counted of a value. -/
inductive Extent where
  | items
  | characters
  | members
  deriving DecidableEq, Repr

/-- The count of a value that can be counted so. -/
def Extent.of? : Extent → Json → Option Nat
  | .items, .array xs => some xs.length
  | .characters, .string s => some s.toList.length
  | .members, .object ms => some ms.length
  | _, _ => none

/-- How a number is bounded. -/
inductive Bound where
  | minimum
  | maximum
  | exclusiveMinimum
  | exclusiveMaximum
  deriving DecidableEq, Repr

/-- The number keeps the bound. -/
def Bound.holds : Bound → Number → Number → Bool
  | .minimum, limit, n => decide (limit.toRat ≤ n.toRat)
  | .maximum, limit, n => decide (n.toRat ≤ limit.toRat)
  | .exclusiveMinimum, limit, n => decide (limit.toRat < n.toRat)
  | .exclusiveMaximum, limit, n => decide (n.toRat < limit.toRat)

mutual

/-- Which values are accepted. -/
inductive Schema where
  /-- Every value, or none. -/
  | constant (accepts : Bool)
  /-- The values that break no rule. -/
  | rules (rs : List Rule)

/-- One demand on a value. -/
inductive Rule where
  /-- The type is one of some. -/
  | type (types : List JsonType)
  /-- The value is one of some. -/
  | enum (values : List Json)
  /-- The value is a certain one. -/
  | const (value : Json)
  /-- A number has a bound. -/
  | bound (b : Bound) (limit : Number)
  /-- A count is at most a number. -/
  | atMost (e : Extent) (limit : Nat)
  /-- A count is at least a number. -/
  | atLeast (e : Extent) (limit : Nat)
  /-- An object has certain members. -/
  | required (keys : List String)
  /-- Members of an object have schemas. -/
  | properties (declared : List (String × Schema))
  /-- Members have schemas and there are no others. -/
  | closed (declared : List (String × Schema))
  /-- Members have schemas, and all others have one schema. -/
  | openTo (declared : List (String × Schema)) (others : Schema)
  /-- An object has no members. -/
  | noMembers
  /-- All members of an object have one schema. -/
  | members (s : Schema)
  /-- All items of an array have one schema. -/
  | items (s : Schema)
  /-- An array has no items. -/
  | noItems

end

instance : Inhabited Schema := ⟨.constant true⟩

/-! ### Schemas of documents -/

/-- The schemas inside a document. -/
structure Schema.Parts where
  additional : Option Schema
  items : Option Schema
  declared : Option (List (String × Schema))

/-- The types that a value of the keyword `type` lists. -/
def Schema.typesOf (v : Json) : List JsonType :=
  let named := match v with
    | .array xs => xs.filterMap fun x => x.text? >>= JsonType.ofName?
    | v => (v.text? >>= JsonType.ofName?).toList
  named

/-- The limit of a count. -/
def Schema.limit? : Json → Option Nat
  | .number n => if n.isIntegral ∧ 0 ≤ n.toRat then some n.toRat.num.toNat else none
  | _ => none

/-- The number of a bound. -/
def Schema.number? : Json → Option Number
  | .number n => some n
  | _ => none

/-- The rule about members that have no schema of their own. -/
def Schema.additionalRule? (p : Schema.Parts) : Option Rule :=
  match p.additional, p.declared with
  | some (.constant true), _ => none
  | some (.constant false), some declared => some (.closed declared)
  | some (.constant false), none => some .noMembers
  | some s, some declared => some (.openTo declared s)
  | some s, none => some (.members s)
  | none, _ => none

/-- The rule about members that have a schema of their own, unless the rule about the others takes
them in. -/
def Schema.propertiesRule? (p : Schema.Parts) : Option Rule :=
  match p.additional with
  | none | some (.constant true) => p.declared.map .properties
  | some _ => none

/-- The rule about items. -/
def Schema.itemsRule? (p : Schema.Parts) : Option Rule :=
  match p.items with
  | some (.constant true) => none
  | some (.constant false) => some .noItems
  | some s => some (.items s)
  | none => none

/-- The rule of a keyword. A word that is no keyword gives none, and neither does any other keyword
that a validator may know, such as `pattern`, `uniqueItems`, `anyOf`, `allOf` or `$ref`: a schema
is read as if it did not have them. What is said of results and repairs beyond these keywords is
therefore said for any validator. -/
def Schema.ruleOf? (p : Schema.Parts) (key : String) (v : Json) : Option Rule :=
  match key with
  | "additionalProperties" => additionalRule? p
  | "const" => some (.const v)
  | "enum" => some (.enum (v.items?.getD []))
  | "exclusiveMaximum" => (number? v).map (.bound .exclusiveMaximum)
  | "exclusiveMinimum" => (number? v).map (.bound .exclusiveMinimum)
  | "items" => itemsRule? p
  | "maxItems" => (limit? v).map (.atMost .items)
  | "maxLength" => (limit? v).map (.atMost .characters)
  | "maxProperties" => (limit? v).map (.atMost .members)
  | "maximum" => (number? v).map (.bound .maximum)
  | "minItems" => (limit? v).map (.atLeast .items)
  | "minLength" => (limit? v).map (.atLeast .characters)
  | "minProperties" => (limit? v).map (.atLeast .members)
  | "minimum" => (number? v).map (.bound .minimum)
  | "properties" => propertiesRule? p
  | "required" => some (.required ((v.items?.getD []).filterMap Json.text?))
  | "type" => some (.type (typesOf v))
  | _ => none

mutual

/-- The schema of a document, its rules in the order of the keywords. What is no schema accepts
every value. -/
def Schema.ofJson : Json → Schema
  | .bool b => .constant b
  | .object ms =>
    let parts := Schema.partsOf ms
    .rules (ms.filterMap fun (k, v) => Schema.ruleOf? parts k v)
  | _ => .constant true

/-- The schemas inside the members of a document. -/
def Schema.partsOf : List (String × Json) → Schema.Parts
  | [] => ⟨none, none, none⟩
  | (k, v) :: rest =>
    let p := Schema.partsOf rest
    if k = "additionalProperties" then { p with additional := some (Schema.ofJson v) }
    else if k = "items" then { p with items := some (Schema.ofJson v) }
    else if k = "properties" then { p with declared := some (Schema.tableOf v) }
    else p

/-- The schemas of the members of an object. -/
def Schema.tableOf : Json → List (String × Schema)
  | .object ms => Schema.schemasOf ms
  | _ => []

/-- The schemas of a list of members. -/
def Schema.schemasOf : List (String × Json) → List (String × Schema)
  | [] => []
  | (k, v) :: rest => (k, Schema.ofJson v) :: Schema.schemasOf rest

end

end Conductor

import Conductor.Json.Format
import Conductor.Json.Printer
import Conductor.Schema.Document

/-!
# Parameters of tools

A tool declares its parameters. From the declaration follow the schema of its arguments, the
default values, the list of what is missing, and the lines of the catalogue.

* `Parameter.inputSchema` : the schema document of the arguments;
* `Parameter.applyDefaults` : the arguments with default values filled in;
* `Parameter.missingRequired` : the required parameters that are absent;
* `Parameter.catalogLine` : a parameter in the catalogue.
-/

namespace Conductor

/-- The types that a parameter may have. -/
inductive Kind where
  | string
  | integer
  | number
  | boolean
  | array
  | object
  deriving DecidableEq, Repr, Inhabited

namespace Kind

/-- All kinds. -/
def all : List Kind := [.string, .integer, .number, .boolean, .array, .object]

/-- The word for a kind. -/
def name : Kind → String
  | .string => "string"
  | .integer => "integer"
  | .number => "number"
  | .boolean => "boolean"
  | .array => "array"
  | .object => "object"

/-- The kind that a word stands for. -/
def ofName? (s : String) : Option Kind := all.find? fun k => k.name == s

open Json

/-- The JSON of a kind. -/
def codec : Codec Kind where
  format := .choice (all.map name)
  encode k := .string k.name
  decode? j := do ofName? (← j.text?)

end Kind

/-- A declared parameter. -/
structure Parameter where
  name : String
  kind : Kind
  required : Bool
  description : String
  allowedValues : Option (List Json)
  default : Option Json
  itemType : Option Kind
  deriving Inhabited

namespace Parameter

/-- A parameter that must be given. -/
def mandatory (name : String) (kind : Kind) : Parameter := ⟨name, kind, true, "", none, none, none⟩

/-- A parameter that may be left out. -/
def optional (name : String) (kind : Kind) : Parameter := ⟨name, kind, false, "", none, none, none⟩

/-! ### Arguments -/

/-- The schema of the items of an array. -/
def itemsMember (p : Parameter) : List (String × Json) :=
  match p.kind, p.itemType with
  | .array, some t => [("items", .object [("type", .string t.name)])]
  | _, _ => []

/-- The schema of the values of a parameter. -/
def valueSchema (p : Parameter) : Json :=
  .object <|
    (p.default.map fun v => ("default", v)).toList ++
    (p.allowedValues.map fun vs => ("enum", .array vs)).toList ++
    p.itemsMember ++ [("type", .string p.kind.name)]

/-- The schema document of the arguments. -/
def inputSchema (ps : List Parameter) : Json :=
  .object
    [("properties", .ofMembers (ps.map fun p => (p.name, p.valueSchema))),
      ("required", .strings ((ps.filter (·.required)).map (·.name))),
      ("type", .string "object")]

/-- The members with the default of a parameter, unless they have it. -/
def withDefault (ms : List (String × Json)) (p : Parameter) : List (String × Json) :=
  match p.default with
  | some v => if (ms.lookup p.name).isSome then ms else insertByKey p.name v ms
  | none => ms

/-- The arguments with default values filled in; no arguments are an empty object, and what is no
object stays as it is. -/
def applyDefaults (ps : List Parameter) : Json → Json
  | .object ms => .object (ps.foldl withDefault ms)
  | .null => .object (ps.foldl withDefault [])
  | args => args

/-- The required parameters that are absent or `null`. -/
def missingRequired (ps : List Parameter) (args : Json) : List String :=
  ((ps.filter (·.required)).filter fun p => match args.get? p.name with
    | none | some .null => true
    | some _ => false).map (·.name)

/-! ### The catalogue -/

/-- The type of a parameter as it stands in the catalogue. -/
def kindText (p : Parameter) : String :=
  match p.kind, p.itemType with
  | .array, some t => "array<" ++ t.name ++ ">"
  | k, _ => k.name

/-- A parameter in the catalogue. -/
def catalogLine (p : Parameter) : String :=
  let parts :=
    [p.kindText, if p.required then "required" else "optional"] ++
    (p.allowedValues.map fun vs => "one of " ++ (Json.array vs).compact).toList ++
    (p.default.map fun v => "default " ++ v.compact).toList
  p.name ++ " (" ++ ", ".intercalate parts ++ ")" ++
    (if p.description.isEmpty then "" else ": " ++ p.description)

open Json

/-- The JSON of a parameter. -/
def codec : Codec Parameter where
  format := .open_ "ParameterSpec"
    [("name", .required, .string), ("kind", .required, Kind.codec.format),
      ("required", .required, .bool), ("description", .default (.string ""), .string),
      ("allowed_values", .nullable, .list .any), ("default", .nullable, .any),
      ("item_type", .nullable, Kind.codec.format)]
  encode p := .object
    [("name", .string p.name), ("kind", Kind.codec.encode p.kind), ("required", .bool p.required),
      ("description", .string p.description), ("allowed_values", .ofOption .array p.allowedValues),
      ("default", .ofOption id p.default), ("item_type", .ofOption Kind.codec.encode p.itemType)]
  decode? j := do
    return {
      name := ← j.part? "name" text?
      kind := ← j.part? "kind" Kind.codec.decode?
      required := ← j.part? "required" bool?
      description := ← j.part? "description" text?
      allowedValues := ← j.part? "allowed_values" (Json.optional items?)
      default := ← j.part? "default" (Json.optional some)
      itemType := ← j.part? "item_type" (Json.optional Kind.codec.decode?) }

end Parameter

end Conductor

import Conductor.Json.Format

/-!
# Tool calls

A call names a tool and carries its arguments.

* `Call.same` : two calls of one tool with the same arguments, `1` and `1.0` being different.
-/

namespace Conductor

/-- A call of a tool. -/
structure Call where
  name : String
  args : Json
  deriving Repr, Inhabited

namespace Call

/-- The calls are of the same tool and have the same arguments. -/
def same (a b : Call) : Bool := a.name == b.name && a.args.same b.args

open Json

/-- The fields of a call. -/
def fields : List (String × Presence × Format) :=
  [("name", .required, .string), ("args", .default .emptyObject, .any)]

/-- The call that a record holds. -/
def ofRecord? (j : Json) : Option Call := do
  return ⟨← j.part? "name" text?, ← j.get? "args"⟩

/-- The members of the record of a call. -/
def members (c : Call) : List (String × Json) := [("name", .string c.name), ("args", c.args)]

/-- The JSON of a call. -/
def codec : Codec Call where
  format := .open_ "ToolCall" fields
  encode c := .object c.members
  decode? := ofRecord?

end Call

end Conductor

import Conductor.Json.Basic
import Conductor.Text.Blank
import Conductor.Text.Case

/-!
# Names of tools in replies

A model spells the name of a tool in its own way. `canonicalToolName` gives the registered
spelling: in small letters, an alias replaced by what it stands for, spaces as underscores.

* `canonicalToolName` : the registered spelling;
* `defaultArgs?` : the arguments of a tool that is called without any.
-/

namespace Conductor

/-- The name of the tool that tells the date and time. -/
def dateTimeTool : String := "datetime_tool"

/-- The spellings that stand for a tool. -/
def toolAliases : List (String × String) :=
  [("date time tool", dateTimeTool),
    ("datetime tool", dateTimeTool),
    ("date_time_tool", dateTimeTool),
    ("date time", dateTimeTool),
    ("datetime", dateTimeTool)]

/-- The text with underscores for spaces. -/
def underscored (s : String) : String :=
  String.ofList (s.toList.map fun c => if c = ' ' then '_' else c)

/-- The registered spelling of a name. -/
def canonicalToolName (name : String) : String :=
  let small := Text.lower (Text.trim name)
  (toolAliases.lookup small).getD (underscored small)

/-- The arguments of a tool that is called without any. -/
def defaultArgs? (tool : String) : Option Json :=
  if tool = dateTimeTool then some (.object [("operation", .string "now")]) else none

end Conductor

import Conductor.Keyed
import Conductor.Tool.Result

/-!
# Observations

What the model is shown of a tool's result: a summary, a few facts, and what may be done next. The
whole result is kept beside them.

* `Observation.promptSection` : the observation as it stands in a prompt;
* `Observation.codec` : its JSON.
-/

namespace Conductor

/-- What is shown of a result. -/
structure Observation where
  tool : String
  summary : String
  facts : Keyed String
  affordances : List String
  result : Result
  deriving Inhabited

namespace Observation

/-- The lines of a text, each one closed. -/
def lines (ls : List String) : String := String.join (ls.map fun l => l ++ "\n")

/-- The observation as it stands in a prompt. -/
def promptSection (o : Observation) : String :=
  lines <|
    ["## Last observation (" ++ o.tool ++ ")", o.summary] ++
    (if o.facts.entries.isEmpty then []
      else "Key facts:" :: o.facts.entries.map fun (k, v) => "- " ++ k ++ " = " ++ v) ++
    (if o.affordances.isEmpty then []
      else ["Suggested next actions: " ++ ", ".intercalate o.affordances]) ++
    [""]

open Json

/-- A table of texts as JSON. -/
def factsJson (t : Keyed String) : Json := .object (t.entries.map fun (k, v) => (k, .string v))

/-- The table of texts that a value holds. -/
def facts? (j : Json) : Option (Keyed String) := do
  let ms ← j.members?
  return .ofList (← ms.mapM fun (k, v) => do return (k, ← v.text?))

/-- The JSON of an observation. -/
def codec : Codec Observation where
  format := .open_ "Observation"
    [("tool", .required, .string), ("summary", .required, .string),
      ("facts", .required, .table .string), ("affordances", .required, .list .string),
      ("result", .required, Result.codec.format)]
  encode o := .object
    [("tool", .string o.tool), ("summary", .string o.summary), ("facts", factsJson o.facts),
      ("affordances", .strings o.affordances), ("result", Result.codec.encode o.result)]
  decode? j := do
    return {
      tool := ← j.part? "tool" text?
      summary := ← j.part? "summary" text?
      facts := ← j.part? "facts" facts?
      affordances := ← j.part? "affordances" texts?
      result := ← j.part? "result" Result.codec.decode? }

end Observation

end Conductor

import Conductor.Decision.ToolName
import Conductor.Timestamp
import Conductor.Tool.Registry

/-!
# Built-in tools

Two tools that are there without being configured: one gives its text back, one tells the date and
time in UTC.

* `Tool.echo`, `Tool.dateTime` : the tools;
* `Registry.builtin` : the registry of both.
-/

namespace Conductor

namespace Tool

/-- The schema document of an object with some members, all of them required. -/
def outputOf (members : List (String × Json)) : Json :=
  .ofMembers
    [("type", .string "object"), ("properties", .ofMembers members),
      ("required", .strings (members.map (·.1)))]

/-- Gives its text back. -/
def echo : Tool where
  name := "echo"
  description := "Echo text back (for testing)"
  parameters := [{ Parameter.mandatory "text" .string with description := "message to echo" }]
  outputSchema := some (outputOf [("text", .object [("type", .string "string")])])
  timeout := none
  retryPolicy := none
  fallback := none
  body _ args _ :=
    .done (.ok (.object [("text", .string ((args.part? "text" Json.text?).getD "(empty)"))]))

/-- What a clock on the wall shows: a time with its offset, a date, and the seconds since 1970. -/
structure Reading where
  time : String
  date : String
  seconds : Json

/-- Tells the date and time that a clock on the wall shows. -/
def dateTime (clock : Nat → Reading) : Tool where
  name := dateTimeTool
  description := "Current date and time in UTC"
  parameters :=
    [{ Parameter.optional "operation" .string with
        allowedValues := some [.string "now", .string "today", .string "timestamp"]
        default := some (.string "now") }]
  outputSchema := some
    (outputOf [("operation", .object [("type", .string "string")]),
      ("value", .object [("type", .strings ["string", "integer"])])])
  timeout := none
  retryPolicy := none
  fallback := none
  body n args _ :=
    let operation := (args.part? "operation" Json.text?).getD "now"
    let answer (v : Json) : Activity (Except Failure Json) :=
      .done (.ok (.object [("operation", .string operation), ("value", v)]))
    match operation with
    | "now" => answer (.string (clock n).time)
    | "today" => answer (.string (clock n).date)
    | "timestamp" => answer (clock n).seconds
    | other => .done (.error (.failed ("unsupported operation: " ++ other)))

end Tool

/-- The tools that are there without being configured. -/
def Registry.builtin (clock : Nat → Tool.Reading) : Registry :=
  .ofList [Tool.echo, Tool.dateTime clock]

end Conductor

import Conductor.Tool.Call
import Conductor.Duration

/-!
# Decisions and actions

A decision is what the model wants next. An action is what is done: a call has become an attempt
with a wait before it.

* `Decision.kind`, `Action.kind` : the word for the variant;
* `Action.describe` : an action as it stands in the decision log;
* `Decision.codec`, `Action.codec` : their JSON, tagged with the kind.
-/

namespace Conductor

/-- What the model wants to be done next. -/
inductive Decision where
  | callTool (call : Call)
  | askUser (question : String) (missingFields : List String)
  | stop (reason : String)
  | replan (subgoals : List String)
  deriving Repr, Inhabited

/-- What is done in a turn. -/
inductive Action where
  | callTool (call : Call) (attempt : Nat) (wait : Duration)
  | askUser (question : String) (missingFields : List String)
  | stop (reason : String)
  | replan (subgoals : List String)
  deriving Repr, Inhabited

open Json

/-! ### Fields that decisions and actions share -/

/-- The fields of a question to the user. -/
def askUserFields : List (String × Presence × Format) :=
  [("question", .required, .string), ("missing_fields", .required, .list .string)]

/-- The fields of a stop. -/
def stopFields : List (String × Presence × Format) := [("reason", .required, .string)]

/-- The fields of a new plan. -/
def replanFields : List (String × Presence × Format) :=
  [("subgoals", .required, .list .string)]

/-- An object with its kind in front. -/
def tagged (kind : String) (members : List (String × Json)) : Json :=
  .object (("kind", .string kind) :: members)

namespace Decision

/-- The word for the variant of a decision. -/
def kind : Decision → String
  | .callTool _ => "call_tool"
  | .askUser _ _ => "ask_user"
  | .stop _ => "stop"
  | .replan _ => "replan"

/-- The JSON of a decision. -/
def codec : Codec Decision where
  format := .tagged "Decision" "kind"
    [("call_tool", "struct ToolCall", Call.fields),
      ("ask_user", "struct variant Decision::AskUser", askUserFields),
      ("stop", "struct variant Decision::Stop", stopFields),
      ("replan", "struct variant Decision::Replan", replanFields)]
  encode d := tagged d.kind <| match d with
    | .callTool call => call.members
    | .askUser q fields => [("question", .string q), ("missing_fields", .strings fields)]
    | .stop r => [("reason", .string r)]
    | .replan gs => [("subgoals", .strings gs)]
  decode? j := do
    match ← j.part? "kind" text? with
    | "call_tool" => return .callTool (← Call.ofRecord? j)
    | "ask_user" =>
      return .askUser (← j.part? "question" text?) (← j.part? "missing_fields" texts?)
    | "stop" => return .stop (← j.part? "reason" text?)
    | "replan" => return .replan (← j.part? "subgoals" texts?)
    | _ => none

end Decision

namespace Action

/-- The first attempt at a call, made at once. -/
def first (call : Call) : Action := .callTool call 1 .zero

/-- The word for the variant of an action. -/
def kind : Action → String
  | .callTool _ _ _ => "call_tool"
  | .askUser _ _ => "ask_user"
  | .stop _ => "stop"
  | .replan _ => "replan"

/-- An action in a few words. -/
def describe : Action → String
  | .callTool call attempt _ =>
    if 1 < attempt then "call " ++ call.name ++ " (attempt " ++ toString attempt ++ ")"
    else "call " ++ call.name
  | .askUser question _ => "ask user: " ++ question
  | .stop reason => "stop: " ++ reason
  | .replan subgoals => "replan into " ++ toString subgoals.length ++ " subgoal(s)"

/-- The JSON of an action. -/
def codec : Codec Action where
  format := .tagged "Action" "kind"
    [("call_tool", "struct variant Action::CallTool",
        [("call", .required, Call.codec.format), ("attempt", .required, .u32),
          ("wait", .required, Duration.codec.format)]),
      ("ask_user", "struct variant Action::AskUser", askUserFields),
      ("stop", "struct variant Action::Stop", stopFields),
      ("replan", "struct variant Action::Replan", replanFields)]
  encode a := tagged a.kind <| match a with
    | .callTool call attempt wait =>
      [("call", Call.codec.encode call), ("attempt", .nat attempt),
        ("wait", Duration.codec.encode wait)]
    | .askUser q fields => [("question", .string q), ("missing_fields", .strings fields)]
    | .stop r => [("reason", .string r)]
    | .replan gs => [("subgoals", .strings gs)]
  decode? j := do
    match ← j.part? "kind" text? with
    | "call_tool" =>
      return .callTool (← j.part? "call" Call.codec.decode?) (← j.part? "attempt" nat?)
        (← j.part? "wait" Duration.codec.decode?)
    | "ask_user" =>
      return .askUser (← j.part? "question" text?) (← j.part? "missing_fields" texts?)
    | "stop" => return .stop (← j.part? "reason" text?)
    | "replan" => return .replan (← j.part? "subgoals" texts?)
    | _ => none

end Action

end Conductor

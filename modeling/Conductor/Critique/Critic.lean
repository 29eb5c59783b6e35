import Conductor.Critique.Basic
import Conductor.Model.Basic
import Conductor.State
import Conductor.Text.Substitution

/-!
# The critic

The critic asks a model whether a result satisfies the goal. It may be set to look at the results
of some tools only.

* `Critic.prompt` : the prompt about an observation;
* `Critic.evaluates` : the critic looks at the results of a tool;
* `Critic.ofAnswer` : the critique for what the model answered.
-/

namespace Conductor

/-- How a model is asked for a critique. -/
structure Critic where
  template : String
  sampling : Sampling
  evaluateAllTools : Bool
  evaluateTools : List String
  deriving DecidableEq, Repr, Inhabited

namespace Critic

/-- The usual template. -/
def standardTemplate : String :=
  "Goal: \x7bgoal\x7d\n\nThe tool '\x7btool\x7d' just returned:\n\x7bobservation\x7d\n" ++
    "Does this result satisfy the goal? Answer with one JSON object."

/-- What the model is told about its task. -/
def systemText : String :=
  "You review tool results for an agent. Reply with exactly one JSON object: \x7b\"assessment\": " ++
    "string, \"goal_satisfied\": bool, \"recommendation\": \"continue\" | \"replan\" | " ++
    "\"clarify\" | \"stop\"\x7d. Set goal_satisfied only when the result fully achieves the goal."

/-- The critic that looks at every result. -/
def plain (template : String) : Critic := ⟨template, .forCritic, true, []⟩

/-- The critic that looks at the results of some tools only; of all, if none are named. -/
def withTools (c : Critic) (tools : List String) : Critic :=
  { c with evaluateAllTools := false, evaluateTools := tools }

/-- The critic looks at the results of a tool. -/
def evaluates (c : Critic) (tool : String) : Bool :=
  c.evaluateAllTools || c.evaluateTools.isEmpty || c.evaluateTools.contains tool

/-- The template with its three places filled in, one after the other. -/
def userText (c : Critic) (goal : Goal) (o : Observation) : String :=
  let withGoal := Text.replaceAll c.template "\x7bgoal\x7d" goal.text
  let withTool := Text.replaceAll withGoal "\x7btool\x7d" o.tool
  Text.replaceAll withTool "\x7bobservation\x7d" o.promptSection

/-- The prompt about an observation. -/
def prompt (c : Critic) (goal : Goal) (o : Observation) : Prompt :=
  ⟨systemText, c.userText goal o, c.sampling⟩

/-- The critique of a result that is not looked at. -/
def notEvaluated (tool : String) : Critique :=
  .neutral ("not evaluated for tool '" ++ tool ++ "'")

/-- The critique when the run is cancelled meanwhile. -/
def cancelled : Critique := .neutral "critic cancelled"

/-- The critique for what the model answered. -/
def ofAnswer : Except ModelError String → Critique
  | .ok reply => .ofReply reply
  | .error e => .neutral ("critic unavailable: " ++ e.message)

end Critic

end Conductor

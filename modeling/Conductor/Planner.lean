import Conductor.Decision.Outline
import Conductor.Model.Basic
import Conductor.State
import Conductor.Tool.Registry

/-!
# The planner

The planner asks the model for the next decision. Its prompt tells the model its task, the form of
a decision and all that is known of the run.

* `Planner.prompt` : the prompt for a state.
-/

namespace Conductor

/-- How the model is asked for a decision. -/
structure Planner where
  systemPrompt : String
  sampling : Sampling
  deriving DecidableEq, Repr, Inhabited

namespace Planner

/-- What the model is told about its task unless it is told otherwise. -/
def standardSystemPrompt : String :=
  "You are an orchestration agent. Each turn you choose exactly one next move toward the user's " ++
    "goal: call one tool, ask the user for missing information, replan into subgoals, or stop."

/-- The rules of an answer. -/
def responseRules : String :=
  "Rules:\n" ++
    "- Output exactly one JSON object and nothing else.\n" ++
    "- Use only tools listed under Available tools, with their declared parameters.\n" ++
    "- When the goal is achieved, stop with a reason that contains the word \"achieved\".\n" ++
    "- Ask the user only when a required value cannot be obtained with a tool."

/-- The planner with the usual sampling. -/
def plain (systemPrompt : String) : Planner := ⟨systemPrompt, .standard⟩

/-- A titled part of a prompt, left out when it has no lines. -/
def part (title : String) (lines : List String) : String :=
  if lines.isEmpty then ""
  else "## " ++ title ++ "\n" ++ String.join (lines.map (· ++ "\n")) ++ "\n"

/-- The subgoals with their numbers. -/
def numbered (subgoals : List String) : List String :=
  subgoals.zipIdx.map fun (g, i) => toString (i + 1) ++ ". " ++ g

/-- The line about the budget. -/
def budgetLine (s : RunState) : String :=
  "Turn " ++ toString (s.turnIndex + 1) ++ " of " ++ toString s.budget.maxTurns ++ " (" ++
    toString (s.budget.remaining s.turnIndex) ++ " remaining), time limit " ++
    toString s.budget.maxDuration.wholeSeconds ++ "s"

/-- The line about a critique. -/
def critiqueLine (c : Critique) : String :=
  c.assessment ++ " (recommendation: " ++ c.recommendation.title ++ ")"

/-- What the model is told about its task and its answers. -/
def systemText (p : Planner) : String :=
  p.systemPrompt ++ "\n\nRespond with a JSON object matching this schema:\n" ++ Decision.outline ++
    "\n\n" ++ responseRules

/-- What the model is told about the run. -/
def userText (r : Registry) (s : RunState) : String :=
  part "Goal" [s.goal.text] ++
    part "Constraints" (s.goal.constraints.map ("- " ++ ·)) ++
    part "Remaining subgoals" (numbered s.subgoals) ++
    part "Budget" [budgetLine s] ++
    r.catalogSection ++ "\n" ++
    ((s.lastObservation.map Observation.promptSection).getD "") ++
    ((s.lastCritique.map fun c => part "Critic" [critiqueLine c]).getD "") ++
    s.digest.promptSection

/-- The prompt for a state. -/
def prompt (p : Planner) (r : Registry) (s : RunState) : Prompt :=
  ⟨p.systemText, userText r s, p.sampling⟩

end Planner

end Conductor

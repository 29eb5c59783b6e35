import Conductor.Rehearsal.Model
import Conductor.Rehearsal.Tool
import Conductor.Run.Turn
import Conductor.Store.Memory

/-!
# Rehearsed agents

An agent whose model plays a script and whose tools play theirs, with a store in memory and the
usual settings. Time does not pass for it.

* `Reply.calls`, `Reply.stops`, `Reply.plans` : replies that hold a decision;
* `Tool.rehearsed`, `Agent.rehearsed` : tools and agents that play scripts;
* `Session.rehearsed`, `Goal.rehearsed` : an outside in which nothing has happened, and a goal.
-/

namespace Conductor

/-- Decides on a call without arguments. -/
def Reply.calls (name : String) : Reply :=
  .text ("\x7b\"action\":\"call_tool\",\"name\":\"" ++ name ++ "\",\"args\":\x7b\x7d\x7d")

/-- Decides on a stop. -/
def Reply.stops (reason : String) : Reply :=
  .text ("\x7b\"action\":\"stop\",\"reason\":\"" ++ reason ++ "\"\x7d")

/-- Decides on a plan with one subgoal. -/
def Reply.plans (subgoal : String) : Reply :=
  .text ("\x7b\"action\":\"replan\",\"subgoals\":[\"" ++ subgoal ++ "\"]\x7d")

/-- A tool that takes any arguments and plays a script. -/
def Tool.rehearsed (name : String) (script : List Outcome) : Tool where
  name := name
  description := ""
  parameters := []
  outputSchema := none
  timeout := none
  retryPolicy := none
  fallback := none
  body := Outcome.play script

/-- An agent whose model plays a script. -/
def Agent.rehearsed (tools : List Tool) (replies : List Reply) : Agent StateStore.Table where
  planner := .plain ""
  critic := none
  executor := .plain (.ofList tools) 30
  normalizer := .plain .standard .empty
  digestLimits := .standard
  store := some .memory
  repairsOutput := true
  model := Reply.play replies none
  criticModel := none
  elapsed := fun _ => .zero

/-- An outside in which nothing has happened and nothing is stored, without subscribers. -/
def Session.rehearsed : Session StateStore.Table := .start (.start false .never) [] .empty

/-- A goal without constraints. -/
def Goal.rehearsed : Goal := ⟨"find it", [], default⟩

end Conductor

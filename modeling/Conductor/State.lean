import Conductor.Critique.Basic
import Conductor.Decision.Basic
import Conductor.Digest
import Conductor.Observation.Basic
import Conductor.Timestamp

/-!
# The state of a run

What is known of a run between two turns. A turn gives a new state; the old one is not changed.

* `RunState.initial` : the state before the first turn;
* `RunState.advance` : the state after a turn;
* `Budget.exhausted` : no turn may be started;
* `RunState.codec` : the JSON of a state, as it is stored.
-/

namespace Conductor

/-- What a run is for. -/
structure Goal where
  text : String
  constraints : List String
  createdAt : Timestamp
  deriving DecidableEq, Repr, Inhabited

/-- How long a run may take. -/
structure Budget where
  maxTurns : Nat
  maxDuration : Duration
  deriving DecidableEq, Repr, Inhabited

namespace Budget

/-- Twenty turns within five minutes. -/
def standard : Budget := ⟨20, .seconds 300⟩

/-- No turn may be started after `turnIndex` turns and the time that has passed. -/
def exhausted (b : Budget) (turnIndex : Nat) (elapsed : Duration) : Bool :=
  b.maxTurns ≤ turnIndex || b.maxDuration ≤ elapsed

/-- The turns that are left. -/
def remaining (b : Budget) (turnIndex : Nat) : Nat := b.maxTurns - turnIndex

end Budget

/-- What is known of a run between two turns. -/
structure RunState where
  goal : Goal
  subgoals : List String
  lastAction : Option Action
  lastObservation : Option Observation
  lastCritique : Option Critique
  budget : Budget
  /-- How many turns have been completed. -/
  turnIndex : Nat
  digest : Digest
  deriving Inhabited

namespace RunState

/-- The state before the first turn. -/
def initial (goal : Goal) (budget : Budget) : RunState where
  goal := goal
  subgoals := []
  lastAction := none
  lastObservation := none
  lastCritique := none
  budget := budget
  turnIndex := 0
  digest := .empty

/-- The subgoals after an action. -/
def subgoalsAfter (s : RunState) : Action → List String
  | .replan subgoals => subgoals
  | _ => s.subgoals

/-- The facts of an observation under the name of their tool. -/
def namedFacts (o : Observation) : List (String × String) :=
  o.facts.entries.map fun (k, v) => (o.tool ++ "." ++ k, v)

/-- The digest with the lines about an action. -/
def logged (limits : DigestLimits) (s : RunState) (action : Action) : Digest :=
  let d := s.digest.log limits ("turn " ++ toString (s.turnIndex + 1) ++ ": " ++ action.describe)
  match action with
  | .replan subgoals => d.log limits ("replanned: " ++ "; ".intercalate subgoals)
  | _ => d

/-- The digest after a turn. -/
def digestAfter (limits : DigestLimits) (s : RunState) (action : Action)
    (observation : Option Observation) : Digest :=
  let d := s.logged limits action
  match observation with
  | some o => d.fold limits (s.turnIndex + 1) (namedFacts o)
  | none => d

/-- The state after a turn. -/
def advance (limits : DigestLimits) (s : RunState) (action : Action)
    (observation : Option Observation) (critique : Option Critique) : RunState where
  goal := s.goal
  subgoals := s.subgoalsAfter action
  lastAction := some action
  lastObservation := observation
  lastCritique := critique
  budget := s.budget
  turnIndex := s.turnIndex + 1
  digest := s.digestAfter limits action observation

end RunState

/-! ### JSON -/

open Json

/-- The JSON of a goal. -/
def Goal.codec : Codec Goal where
  format := .open_ "Goal"
    [("text", .required, .string), ("constraints", .required, .list .string),
      ("created_at", .required, Timestamp.codec.format)]
  encode g := .object
    [("text", .string g.text), ("constraints", .strings g.constraints),
      ("created_at", Timestamp.codec.encode g.createdAt)]
  decode? j := do
    return ⟨← j.part? "text" text?, ← j.part? "constraints" texts?,
      ← j.part? "created_at" Timestamp.codec.decode?⟩

/-- The JSON of a budget. -/
def Budget.codec : Codec Budget where
  format := .open_ "Budget"
    [("max_turns", .required, .u32), ("max_duration", .required, Duration.codec.format)]
  encode b := .object
    [("max_turns", .nat b.maxTurns), ("max_duration", Duration.codec.encode b.maxDuration)]
  decode? j := do
    return ⟨← j.part? "max_turns" nat?, ← j.part? "max_duration" Duration.codec.decode?⟩

/-- The JSON of a state. -/
def RunState.codec : Codec RunState where
  format := .open_ "AgentState"
    [("goal", .required, Goal.codec.format),
      ("subgoals", .required, .list .string),
      ("last_action", .nullable, Action.codec.format),
      ("last_observation", .nullable, Observation.codec.format),
      ("last_critique", .nullable, Critique.codec.format),
      ("budget", .required, Budget.codec.format),
      ("turn_index", .required, .u32),
      ("digest", .required, Digest.codec.format)]
  encode s := .object
    [("goal", Goal.codec.encode s.goal),
      ("subgoals", .strings s.subgoals),
      ("last_action", .ofOption Action.codec.encode s.lastAction),
      ("last_observation", .ofOption Observation.codec.encode s.lastObservation),
      ("last_critique", .ofOption Critique.codec.encode s.lastCritique),
      ("budget", Budget.codec.encode s.budget),
      ("turn_index", .nat s.turnIndex),
      ("digest", Digest.codec.encode s.digest)]
  decode? j := do
    return {
      goal := ← j.part? "goal" Goal.codec.decode?
      subgoals := ← j.part? "subgoals" texts?
      lastAction := ← j.part? "last_action" (optional Action.codec.decode?)
      lastObservation := ← j.part? "last_observation" (optional Observation.codec.decode?)
      lastCritique := ← j.part? "last_critique" (optional Critique.codec.decode?)
      budget := ← j.part? "budget" Budget.codec.decode?
      turnIndex := ← j.part? "turn_index" nat?
      digest := ← j.part? "digest" Digest.codec.decode? }

end Conductor

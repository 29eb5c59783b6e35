import Conductor.Critique.Critic
import Conductor.Decision.Reply
import Conductor.Observation.Normalizer
import Conductor.Planner
import Conductor.Policy
import Conductor.Run.Execution

/-!
# Turns

One turn of a run: the model decides, the policy makes the decision an action, the action is done,
and a new state follows. A turn can fail; then there is no new state.

* `Agent` : everything that a run is made of;
* `Agent.turn` : one turn;
* `TurnFault.message` : why a turn has failed.
-/

namespace Conductor

/-- How a run stands. -/
inductive Phase where
  | running
  | awaitingUser
  | stopped
  deriving DecidableEq, Repr, Inhabited

/-- The word for a phase. -/
def Phase.name : Phase → String
  | .running => "Running"
  | .awaitingUser => "AwaitingUser"
  | .stopped => "Stopped"

/-- Everything that a run is made of. -/
structure Agent (σ : Type) where
  planner : Planner
  critic : Option Critic
  executor : Executor
  normalizer : Normalizer
  digestLimits : DigestLimits
  store : Option (StateStore σ)
  /-- Outputs that do not conform are repaired where they can be. -/
  repairsOutput : Bool
  model : Model
  /-- The own model of the critic; without one it asks that of the planner. -/
  criticModel : Option Model
  /-- The time that has passed since the start of the run, by the number of the reading. -/
  elapsed : Nat → Duration

/-- How a run ends. -/
structure Verdict where
  phase : Phase
  success : Bool
  reason : String
  deriving DecidableEq, Repr, Inhabited

/-- What a turn gives: the next state, and how the run ends if it ends. -/
structure TurnOutcome where
  next : RunState
  verdict : Option Verdict

/-- Why a turn has failed. -/
inductive TurnFault where
  | decision (f : Decision.Fault)
  | model (e : ModelError)
  | panicked (message : String)
  | cancelled
  /-- The turn will never come to its end. -/
  | stalled
  deriving DecidableEq, Repr

/-- The wording of a fault. -/
def TurnFault.message : TurnFault → String
  | .decision f => "Decision parse error: " ++ f.message
  | .model e => "LLM error: " ++ e.message
  | .panicked m => "Turn panicked: " ++ m
  | .cancelled => "Cancelled"
  | .stalled => "Stalled"

/-- The reason of a run that ended with a question to the user. -/
def stopUserInput : String := "user input required"

/-- The reason of a run whose budget is used up. -/
def stopBudget : String := "Budget exhausted"

/-- The reason of a run that was cancelled. -/
def stopCancelled : String := "Cancelled by user"

/-- The reason of a stop says that the goal is achieved. -/
def claimsAchievement (reason : String) : Bool :=
  Text.occursIn "achieved".toList (Text.lowerChars reason.toList)

namespace Agent

variable {σ : Type}

/-! ### Asking models -/

/-- Asks a model: the request arrives, is counted and recorded, and is answered. -/
def request (model : Model) (counted : Session σ → Nat) (count : Session σ → Session σ)
    (h : Prompt → Happening) (p : Prompt) : Outside σ (Ended (Except ModelError String)) := do
  let exchange := model (counted (← get)) p
  match ← Outside.attempt (.sleep exchange.transit (.done ())) with
  | .returned () =>
    modify count
    Outside.note (h p)
    Outside.perform none exchange.answer
  | .panicked m => return .panicked m
  | .interrupted => return .interrupted
  | .expired => return .expired
  | .stalled => return .stalled

/-- Asks the model of the planner. -/
def askPlanner (a : Agent σ) (p : Prompt) : Outside σ (Ended (Except ModelError String)) :=
  request a.model (·.plannerCalls) (fun s => { s with plannerCalls := s.plannerCalls + 1 })
    .plannerAsked p

/-- Asks the model of the critic. -/
def askCritic (a : Agent σ) (p : Prompt) : Outside σ (Ended (Except ModelError String)) :=
  match a.criticModel with
  | some m =>
    request m (·.criticCalls) (fun s => { s with criticCalls := s.criticCalls + 1 }) .criticAsked p
  | none =>
    request a.model (·.plannerCalls) (fun s => { s with plannerCalls := s.plannerCalls + 1 })
      .criticAsked p

/-- The decision of the model. -/
def decide (a : Agent σ) (state : RunState) : Outside σ (Except TurnFault Decision) := do
  match ← a.askPlanner (a.planner.prompt a.executor.registry state) with
  | .returned (.ok reply) => return (Decision.parse reply).mapError .decision
  | .returned (.error e) => return .error (.model e)
  | .panicked m => return .error (.panicked m)
  | .interrupted => return .error .cancelled
  | .expired | .stalled => return .error .stalled

/-- The critique of an observation. -/
def assess (a : Agent σ) (critic : Critic) (goal : Goal) (o : Observation) :
    Outside σ (Except TurnFault Critique) := do
  if critic.evaluates o.tool then
    match ← a.askCritic (critic.prompt goal o) with
    | .returned answer => return .ok (Critic.ofAnswer answer)
    | .panicked m => return .error (.panicked m)
    | .interrupted => return .ok Critic.cancelled
    | .expired | .stalled => return .error .stalled
  else return .ok (Critic.notEvaluated o.tool)

/-! ### Doing an action -/

/-- Waits before a call. -/
def pause (wait : Duration) : Outside σ (Except TurnFault Unit) := do
  if wait.nanos = 0 then return .ok ()
  else match ← Outside.attempt (.sleep wait.millisUp (.done ())) with
    | .returned () => return .ok ()
    | .interrupted => return .error .cancelled
    | .panicked m => return .error (.panicked m)
    | .expired | .stalled => return .error .stalled

/-- The result of a call, repaired where that is wanted and possible. -/
def call (a : Agent σ) (call : Call) (attempt : Nat) : Outside σ Result := do
  let r ← a.executor.execute call attempt
  return if a.repairsOutput then (a.executor.repair? r).getD r else r

/-- The critique of an observation, if there is a critic. -/
def judge (a : Agent σ) (goal : Goal) (o : Observation) :
    Outside σ (Except TurnFault (Option Critique)) :=
  match a.critic with
  | none => return .ok none
  | some critic => do return (← a.assess critic goal o).map some

/-- How a run ends after a critique, if it ends. -/
def verdictOf (critique : Option Critique) : Option Verdict :=
  match critique with
  | some c =>
    if c.goalSatisfied then some ⟨.stopped, true, "Goal achieved: " ++ c.assessment⟩ else none
  | none => none

/-- The state after a turn. -/
def next (a : Agent σ) (state : RunState) (action : Action) (o : Option Observation)
    (c : Option Critique) : RunState :=
  state.advance a.digestLimits action o c

/-- Makes a call and has its result judged. -/
def doCall (a : Agent σ) (runId : String) (state : RunState) (action : Action) (c : Call)
    (attempt : Nat) : Outside σ (Except TurnFault TurnOutcome) := do
  let r ← a.call c attempt
  let o := a.normalizer.observe c.name r.data r
  Outside.emit (.toolCalled runId c.name o.summary)
  match ← a.judge state.goal o with
  | .error f => return .error f
  | .ok critique =>
    return .ok ⟨a.next state action (some o) critique, verdictOf critique⟩

/-- Does an action. -/
def act (a : Agent σ) (runId : String) (state : RunState) (action : Action) :
    Outside σ (Except TurnFault TurnOutcome) :=
  match action with
  | .callTool c attempt wait => do
    match ← pause wait with
    | .error f => return .error f
    | .ok () => a.doCall runId state action c attempt
  | .askUser question fields => do
    Outside.emit (.userInputRequested runId question fields)
    return .ok ⟨a.next state action none none, some ⟨.awaitingUser, false, stopUserInput⟩⟩
  | .stop reason =>
    return .ok
      ⟨a.next state action none none, some ⟨.stopped, claimsAchievement reason, reason⟩⟩
  | .replan _ => return .ok ⟨a.next state action none none, none⟩

/-- The action for a decision in a state. -/
def resolve (a : Agent σ) (policy : FailurePolicy) (state : RunState) (d : Decision) : Action :=
  policy.resolve a.executor.registry d state.lastObservation state

/-- One turn. -/
def turn (a : Agent σ) (runId : String) (policy : FailurePolicy) (state : RunState) :
    Outside σ (Except TurnFault TurnOutcome) := do
  match ← a.decide state with
  | .error f => return .error f
  | .ok d => a.act runId state (a.resolve policy state d)

end Agent

end Conductor

import Conductor.Run.Turn

/-!
# Runs

A run goes on turn by turn until a turn ends it, a turn fails, it is cancelled, or its budget is
used up. After every turn the state is stored, so that a run that has broken off can be taken up
again; at the end what was stored is removed.

* `Agent.run` : a whole run;
* `Agent.loop` : the turns of a run, at most as many as the budget has left;
* `Report` : what is told at the end.
-/

namespace Conductor

/-- What is told at the end of a run. -/
structure Report where
  runId : String
  verdict : Verdict
  state : RunState

/-- How many turns have been completed. -/
def Report.totalTurns (r : Report) : Nat := r.state.turnIndex

namespace Agent

variable {σ : Type}

/-- The verdict of a run that was stopped without success. -/
def stopped (reason : String) : Verdict := ⟨.stopped, false, reason⟩

/-- The verdict for a turn that has failed; a turn that never ends gives none. -/
def verdictOfFault : TurnFault → Option Verdict
  | .cancelled => some (stopped stopCancelled)
  | .stalled => none
  | f => some (stopped f.message)

/-- The word for the action of the last turn. -/
def lastActionKind (s : RunState) : String := (s.lastAction.map Action.kind).getD "none"

/-- Reads how much time has passed. -/
def readElapsed (a : Agent σ) : Outside σ Duration := modifyGet fun s =>
  (a.elapsed s.readings, { s with readings := s.readings + 1 })

/-- One turn with its two events and the storing of the next state. -/
def step (a : Agent σ) (runId : String) (policy : FailurePolicy) (state : RunState) :
    Outside σ (Except TurnFault TurnOutcome) := do
  let turn := state.turnIndex + 1
  Outside.emit (.turnStarted runId turn)
  let started ← Outside.now
  match ← a.turn runId policy state with
  | .error f => return .error f
  | .ok o =>
    let ms := (← Outside.now) - started
    Outside.emit (.turnCompleted runId turn ms (lastActionKind o.next))
    let _ ← Outside.save a.store runId o.next
    return .ok o

/-- The turns of a run from a state on, with an upper limit of their number. The verdict is `none`
when a turn never ends. -/
def loop (a : Agent σ) (runId : String) (policy : FailurePolicy) :
    Nat → RunState → Outside σ (Option Verdict × RunState)
  | left, state => do
    if ← Outside.look then return (some (stopped stopCancelled), state)
    let elapsed ← a.readElapsed
    if state.budget.exhausted state.turnIndex elapsed then
      return (some (stopped stopBudget), state)
    match left with
    | 0 => return (some (stopped stopBudget), state)
    | left + 1 =>
      match ← a.step runId policy state with
      | .error f => return (verdictOfFault f, state)
      | .ok o => match o.verdict with
        | some v => return (some v, o.next)
        | none => a.loop runId policy left o.next

/-- The state in which a run begins: the one that is stored, or a new one. -/
def begin_ (a : Agent σ) (runId : String) (goal : Goal) (budget : Budget) :
    Outside σ RunState := do
  match ← Outside.load a.store runId with
  | .ok (some saved) => return saved
  | _ => return .initial goal budget

/-- A whole run; `none` when it never ends. -/
def run (a : Agent σ) (runId : String) (goal : Goal) (budget : Budget) (policy : FailurePolicy) :
    Outside σ (Option Report) := do
  let state ← a.begin_ runId goal budget
  let (verdict, final) ←
    a.loop runId policy (state.budget.remaining state.turnIndex) state
  match verdict with
  | none => return none
  | some v =>
    let _ ← Outside.clear a.store runId
    return some ⟨runId, v, final⟩

end Agent

end Conductor

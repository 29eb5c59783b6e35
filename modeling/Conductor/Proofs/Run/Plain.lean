import Conductor.Proofs.Run.Outside
import Conductor.Run.Loop

/-!
# What a turn is made of

All that a turn does to the outside is made of a few plain things: it looks whether the run is
cancelled, reads the clock, runs a piece of work, makes a note, and keeps its books. It never turns
to the store. What every plain thing keeps is therefore kept by a turn.

* `Session.Books` : what a run has counted and told;
* `Outside.Plain` : a computation that is made of plain things;
* `Executor.plain_execute` : a call is made of plain things;
* `Agent.plain_turn` : **a turn is made of plain things.**
-/

namespace Conductor

/-- What a run has counted and told: the books that it keeps of itself. -/
structure Session.Books where
  plannerCalls : Nat
  criticCalls : Nat
  readings : Nat
  invocations : Keyed Nat
  bus : Bus

namespace Session

variable {σ : Type}

/-- The books of a run. -/
def books (s : Session σ) : Books :=
  ⟨s.plannerCalls, s.criticCalls, s.readings, s.invocations, s.bus⟩

/-- The outside with other books. -/
def withBooks (s : Session σ) (b : Books) : Session σ :=
  { s with
    plannerCalls := b.plannerCalls
    criticCalls := b.criticCalls
    readings := b.readings
    invocations := b.invocations
    bus := b.bus }

end Session

namespace Outside

open Session (Books)

variable {σ : Type}

/-- The computation is made of plain things. -/
inductive Plain : {α : Type} → Outside σ α → Prop
  | pure {α : Type} (x : α) : Plain (Pure.pure x)
  | bind {α β : Type} {m : Outside σ α} {f : α → Outside σ β} (hm : Plain m)
      (hf : ∀ x, Plain (f x)) : Plain (m >>= f)
  | look : Plain Outside.look
  | now : Plain Outside.now
  | perform {α : Type} (deadline : Option Nat) (x : Activity α) : Plain (Outside.perform deadline x)
  | note (h : Happening) : Plain (Outside.note h)
  /-- What is done next depends on the books. -/
  | get {α : Type} {f : Session σ → Outside σ α} (hf : ∀ s, Plain (f s))
      (hbooks : ∀ s r, r.books = s.books → f r = f s) : Plain (MonadState.get >>= f)
  | write (f : Books → Books) : Plain (modify fun s => s.withBooks (f s.books))

namespace Plain

variable {α : Type}

theorem emit (e : Event) : Plain (σ := σ) (Outside.emit e) :=
  .bind (.note _) fun _ => .write fun b => { b with bus := b.bus.emit e }

theorem attempt (x : Activity α) : Plain (σ := σ) (Outside.attempt x) :=
  .bind .look fun c => by
    cases c
    · exact .perform none x
    · exact .pure _

end Plain

end Outside

open Outside

/-! ### Calls -/

namespace Executor

variable {σ : Type} (x : Executor)

theorem plain_invoke (tool : Tool) (timeout : Duration) (args : Json) (n : Nat) :
    Plain (σ := σ) (x.invoke tool timeout args n) := by
  refine .bind .look fun c => ?_
  cases c with
  | true => exact .pure _
  | false =>
    refine .get (fun s => ?_) fun s r hbooks => ?_
    · refine .bind (.write fun b => { b with
        invocations := b.invocations.insert tool.name
          ((s.invocations.get? tool.name).getD 0 + 1) }) fun _ => ?_
      exact .bind (.note _) fun _ => .bind .now fun _ => .perform _ _
    · have hcounts : r.invocations = s.invocations := congrArg Session.Books.invocations hbooks
      simp only [hcounts]

theorem plain_outcome (c : Call) (n : Nat) : Plain (σ := σ) (x.outcome c n) := by
  unfold outcome outcomeUnder
  split
  · exact .pure _
  · dsimp only
    split
    · exact .bind (x.plain_invoke _ _ _ _) fun _ => .pure _
    · exact .pure _

theorem plain_execute (c : Call) (n : Nat) : Plain (σ := σ) (x.execute c n) :=
  .bind .now fun _ => .bind (x.plain_outcome c n) fun _ => .bind .now fun _ =>
    .bind (.note _) fun _ => .pure _

end Executor

/-! ### Turns -/

namespace Agent

open Session (Books)

variable {σ : Type} (a : Agent σ)

/-- A request is counted in the books, and the answer depends on nothing else. -/
theorem plain_request (m : Model) (counted : Books → Nat) (count : Books → Books)
    (h : Prompt → Happening) (p : Prompt) :
    Plain (σ := σ)
      (request m (fun s => counted s.books) (fun s => s.withBooks (count s.books)) h p) := by
  refine .get (fun s => .bind (.attempt _) fun e => ?_) fun s r hbooks => ?_
  · cases e with
    | returned _ => exact .bind (.write count) fun _ => .bind (.note _) fun _ => .perform _ _
    | panicked | interrupted | expired | stalled => exact .pure _
  · simp only [hbooks]

theorem plain_askPlanner (p : Prompt) : Plain (a.askPlanner p) :=
  plain_request a.model (·.plannerCalls)
    (fun b => { b with plannerCalls := b.plannerCalls + 1 }) .plannerAsked p

theorem plain_askCritic (p : Prompt) : Plain (a.askCritic p) := by
  unfold askCritic
  split
  next m _ =>
    exact plain_request m (·.criticCalls)
      (fun b => { b with criticCalls := b.criticCalls + 1 }) .criticAsked p
  next =>
    exact plain_request a.model (·.plannerCalls)
      (fun b => { b with plannerCalls := b.plannerCalls + 1 }) .criticAsked p

theorem plain_decide (state : RunState) : Plain (a.decide state) := by
  refine .bind (a.plain_askPlanner _) fun e => ?_
  split <;> exact .pure _

theorem plain_judge (goal : Goal) (o : Observation) : Plain (a.judge goal o) := by
  unfold judge
  split
  · exact .pure _
  next critic _ =>
    refine .bind ?_ fun _ => .pure _
    unfold assess
    split
    · refine .bind (a.plain_askCritic _) fun e => ?_
      split <;> exact .pure _
    · exact .pure _

theorem plain_pause (wait : Duration) : Plain (σ := σ) (pause wait) := by
  unfold pause
  split
  · exact .pure _
  · refine .bind (.attempt _) fun e => ?_
    split <;> exact .pure _

theorem plain_doCall (runId : String) (state : RunState) (action : Action) (c : Call) (n : Nat) :
    Plain (a.doCall runId state action c n) := by
  refine .bind (.bind (a.executor.plain_execute c n) fun _ => .pure _) fun r => ?_
  refine .bind (.emit _) fun _ => .bind (a.plain_judge _ _) fun e => ?_
  split <;> exact .pure _

theorem plain_act (runId : String) (state : RunState) (action : Action) :
    Plain (a.act runId state action) := by
  cases action with
  | callTool c n w =>
    refine .bind (plain_pause w) fun e => ?_
    cases e with
    | error f => exact .pure _
    | ok _ => exact a.plain_doCall runId state _ c n
  | askUser q fields => exact .bind (.emit _) fun _ => .pure _
  | stop r => exact .pure _
  | replan gs => exact .pure _

/-- **A turn is made of plain things.** -/
theorem plain_turn (runId : String) (policy : FailurePolicy) (state : RunState) :
    Plain (a.turn runId policy state) := by
  refine .bind (a.plain_decide state) fun e => ?_
  cases e with
  | error f => exact .pure _
  | ok d => exact a.plain_act runId state _

/-- A reading of the time that has passed is counted in the books. -/
theorem plain_readElapsed : Plain a.readElapsed := by
  let count (b : Books) : Books := { b with readings := b.readings + 1 }
  have hread : a.readElapsed = MonadState.get >>= fun s =>
      modify (fun s => s.withBooks (count s.books)) >>= fun _ => pure (a.elapsed s.readings) := rfl
  rw [hread]
  refine .get (fun s => .bind (.write count) fun _ => .pure _) fun s r hbooks => ?_
  have hreadings : r.readings = s.readings := congrArg Books.readings hbooks
  simp only [hreadings]

end Agent

end Conductor

import Conductor.Proofs.Run.Turn
import Mathlib.Data.List.Chain

/-!
# The course of a run

A run completes some turns, one after the other, and then ends: before the next turn, because that
turn fails, or because the last turn has given a verdict. Here the turns are listed with what each
began with, decided and left, and the list is tied to the loop: every fact about whole runs is an
induction over `Agent.Course`.

* `Agent.CompletedTurn` : a turn that this agent has completed, with the evidence;
* `Agent.turns` : the completed turns of a run, in order;
* `Agent.Course` : from a state on, these turns were completed and the loop ended like this;
* `Agent.loop_course`, `Agent.run_course` : **every run takes the course of its turns**;
* `Course.turnIndex`, `Course.budget`, `Course.goal` : every turn is counted once, and budget and
  goal never change;
* `Course.cut`, `Course.cut_remaining` : after a turn that gave no verdict, the loop goes on from
  what that turn left.
-/

namespace Conductor

namespace Agent

variable {σ : Type}

/-! ### Completed turns -/

/-- A turn that has been completed. -/
structure CompletedTurn (a : Agent σ) (runId : String) (policy : FailurePolicy) where
  before : RunState
  /-- The outside when the turn was started. -/
  start : Session σ
  decision : Decision
  outcome : TurnOutcome
  /-- The outside when the turn was over. -/
  after : Session σ
  decides : a.decided runId before start = .ok decision
  completes : (a.step runId policy before).run start = (.ok outcome, after)

variable {a : Agent σ} {runId : String} {policy : FailurePolicy}

namespace CompletedTurn

variable (t : a.CompletedTurn runId policy)

/-- What the policy has made of the decision. -/
def action : Action := a.resolve policy t.before t.decision

/-- The state that the turn left. -/
def next : RunState := t.outcome.next

/-- How the run ends with the turn, if it does. -/
def verdict : Option Verdict := t.outcome.verdict

/-- The run goes on after the turn, with the other one. -/
def Precedes (u : a.CompletedTurn runId policy) : Prop := t.verdict = none ∧ u.before = t.next

theorem yields : a.Yields t.before t.action t.outcome := by
  obtain ⟨d, hd, hy⟩ := a.step_yields t.completes
  obtain rfl := Except.ok.inj (hd.symm.trans t.decides)
  exact hy

theorem next_turnIndex : t.next.turnIndex = t.before.turnIndex + 1 := t.yields.turnIndex

theorem next_budget : t.next.budget = t.before.budget := t.yields.budget

theorem next_goal : t.next.goal = t.before.goal := t.yields.goal

theorem next_lastAction : t.next.lastAction = some t.action := t.yields.lastAction

end CompletedTurn

variable (a) (runId policy)

/-- The turn that is completed from a state on, if it does not fail. -/
def completed? (state : RunState) (s : Session σ) : Option (a.CompletedTurn runId policy) :=
  match hd : a.decided runId state s, hs : (a.step runId policy state).run s with
  | .ok d, (.ok o, after) => some ⟨state, s, d, o, after, hd, hs⟩
  | _, _ => none

variable {a runId policy}

theorem completed?_of_ok {state : RunState} {s s' : Session σ} {o : TurnOutcome}
    (h : (a.step runId policy state).run s = (.ok o, s')) :
    ∃ t, a.completed? runId policy state s = some t ∧
      t.before = state ∧ t.start = s ∧ t.outcome = o ∧ t.after = s' := by
  obtain ⟨d, hd, -⟩ := a.step_yields h
  refine ⟨⟨state, s, d, o, s', hd, h⟩, ?_, rfl, rfl, rfl, rfl⟩
  unfold completed?
  split
  · rename_i d' o' after hd' hs'
    obtain rfl := Except.ok.inj (hd'.symm.trans hd)
    obtain ⟨ho, rfl⟩ := Prod.mk.inj (hs'.symm.trans h)
    obtain rfl := Except.ok.inj ho
    rfl
  · rename_i hno
    exact absurd h (hno d o s' hd)

theorem completed?_of_error {state : RunState} {s s' : Session σ} {f : TurnFault}
    (h : (a.step runId policy state).run s = (.error f, s')) :
    a.completed? runId policy state s = none := by
  unfold completed?
  split
  · rename_i hs
    cases (Prod.mk.inj (hs.symm.trans h)).1
  · rfl

/-! ### The head of the loop -/

variable (a) in
/-- What the loop looks at before a turn: why it ends without one, if it does. -/
def halt? (left : Nat) (state : RunState) : Outside σ (Option String) := do
  if ← Outside.look then return some stopCancelled
  let elapsed ← a.readElapsed
  return if state.budget.exhausted state.turnIndex elapsed || left == 0 then some stopBudget
    else none

variable (a runId policy) in
/-- What the loop does after a turn. -/
def afterStep (left : Nat) (state : RunState) :
    Except TurnFault TurnOutcome → Outside σ (Option Verdict × RunState)
  | .error f => pure (verdictOfFault f, state)
  | .ok o => match o.verdict with
    | some v => pure (some v, o.next)
    | none => a.loop runId policy left o.next

theorem loop_zero (state : RunState) : a.loop runId policy 0 state =
    a.halt? 0 state >>= fun r => pure (some (stopped (r.getD stopBudget)), state) := by
  simp only [loop, halt?, bind_assoc]
  refine bind_congr fun c => ?_
  cases c
  · simp only [Bool.false_eq_true, ↓reduceIte, bind_assoc, beq_self_eq_true, Bool.or_true,
      pure_bind, Option.getD_some]
    exact bind_congr fun e => by split <;> rfl
  · rfl

theorem loop_succ (left : Nat) (state : RunState) : a.loop runId policy (left + 1) state =
    a.halt? (left + 1) state >>= fun
      | some r => pure (some (stopped r), state)
      | none => a.step runId policy state >>= a.afterStep runId policy left state := by
  simp only [loop, halt?, bind_assoc]
  refine bind_congr fun c => ?_
  cases c
  · simp only [Bool.false_eq_true, ↓reduceIte, bind_assoc]
    refine bind_congr fun e => ?_
    cases state.budget.exhausted state.turnIndex e
    · rfl
    · rfl
  · rfl

/-! What the loop gives, in each of the ways in which it can go on. -/

section Ways

variable {left : Nat} {state : RunState} {s s₁ s' : Session σ}

theorem loop_of_halt {r : String} (h : (a.halt? left state).run s = (some r, s')) :
    (a.loop runId policy left state).run s = ((some (stopped r), state), s') := by
  cases left with
  | zero => rw [loop_zero, Outside.run_bind, h]; rfl
  | succ left => rw [loop_succ, Outside.run_bind, h]; rfl

theorem loop_of_fault {f : TurnFault} (h : (a.halt? (left + 1) state).run s = (none, s₁))
    (hs : (a.step runId policy state).run s₁ = (.error f, s')) :
    (a.loop runId policy (left + 1) state).run s = ((verdictOfFault f, state), s') := by
  rw [loop_succ, Outside.run_bind, h, Outside.run_bind, hs]
  rfl

theorem loop_of_verdict {o : TurnOutcome} {v : Verdict}
    (h : (a.halt? (left + 1) state).run s = (none, s₁))
    (hs : (a.step runId policy state).run s₁ = (.ok o, s')) (hv : o.verdict = some v) :
    (a.loop runId policy (left + 1) state).run s = ((some v, o.next), s') := by
  rw [loop_succ, Outside.run_bind, h, Outside.run_bind, hs]
  simp only [afterStep, hv]
  rfl

theorem loop_of_next {o : TurnOutcome} (h : (a.halt? (left + 1) state).run s = (none, s₁))
    (hs : (a.step runId policy state).run s₁ = (.ok o, s')) (hv : o.verdict = none) :
    (a.loop runId policy (left + 1) state).run s = (a.loop runId policy left o.next).run s' := by
  rw [loop_succ, Outside.run_bind, h, Outside.run_bind, hs]
  simp only [afterStep, hv]

end Ways

theorem halt?_zero_ne_none {state : RunState} {s s' : Session σ} :
    (a.halt? 0 state).run s ≠ (none, s') := by
  intro h
  obtain ⟨c, s₁, -, h⟩ := Outside.run_bind_eq.1 h
  cases c with
  | true => cases (Outside.run_pure_eq.1 h).1
  | false =>
    obtain ⟨e, s₂, -, h⟩ := Outside.run_bind_eq.1 h
    simpa using (Outside.run_pure_eq.1 h).1

/-! ### The course of the loop -/

variable (a runId policy) in
/-- The turns that the loop completes from a state on. -/
def turnsFrom : Nat → RunState → Session σ → List (a.CompletedTurn runId policy)
  | 0, _, _ => []
  | left + 1, state, s =>
    match (a.halt? (left + 1) state).run s with
    | (some _, _) => []
    | (none, s₁) => match a.completed? runId policy state s₁ with
      | none => []
      | some t => t :: match t.verdict with
        | some _ => []
        | none => turnsFrom left t.next t.after

variable (a runId policy) in
/-- From a state on, with some turns left, these turns were completed, and the loop ended with this
verdict and in this state. -/
inductive Course : Nat → RunState → Session σ → List (a.CompletedTurn runId policy) →
    Option Verdict → RunState → Session σ → Prop
  /-- No further turn was started. -/
  | halted {left : Nat} {state : RunState} {s s' : Session σ} {r : String}
      (halt : (a.halt? left state).run s = (some r, s')) :
      Course left state s [] (some (stopped r)) state s'
  /-- A turn was started and failed. -/
  | failed {left : Nat} {state : RunState} {s s₁ s' : Session σ} {f : TurnFault}
      (halt : (a.halt? (left + 1) state).run s = (none, s₁))
      (step : (a.step runId policy state).run s₁ = (.error f, s')) :
      Course (left + 1) state s [] (verdictOfFault f) state s'
  /-- A turn was completed and ended the run. -/
  | ended {left : Nat} {s : Session σ} {t : a.CompletedTurn runId policy} {v : Verdict}
      (halt : (a.halt? (left + 1) t.before).run s = (none, t.start)) (hv : t.verdict = some v) :
      Course (left + 1) t.before s [t] (some v) t.next t.after
  /-- A turn was completed and the loop went on. -/
  | goesOn {left : Nat} {s s' : Session σ} {t : a.CompletedTurn runId policy}
      {turns : List (a.CompletedTurn runId policy)} {v : Option Verdict} {final : RunState}
      (halt : (a.halt? (left + 1) t.before).run s = (none, t.start)) (hv : t.verdict = none)
      (rest : Course left t.next t.after turns v final s') :
      Course (left + 1) t.before s (t :: turns) v final s'

/-- **The loop takes the course of its turns.** -/
theorem loop_course {left : Nat} {state final : RunState} {s s' : Session σ} {v : Option Verdict}
    (h : (a.loop runId policy left state).run s = ((v, final), s')) :
    a.Course runId policy left state s (a.turnsFrom runId policy left state s) v final s' := by
  induction left generalizing state s with
  | zero =>
    rw [loop_zero] at h
    obtain ⟨r, s₁, hh, h⟩ := Outside.run_bind_eq.1 h
    obtain ⟨he, rfl⟩ := Outside.run_pure_eq.1 h
    obtain ⟨rfl, rfl⟩ := Prod.mk.inj he
    cases r with
    | none => exact absurd hh halt?_zero_ne_none
    | some r => exact .halted hh
  | succ left ih =>
    rw [loop_succ] at h
    obtain ⟨r, s₁, hh, h⟩ := Outside.run_bind_eq.1 h
    cases r with
    | some r =>
      obtain ⟨he, rfl⟩ := Outside.run_pure_eq.1 h
      obtain ⟨rfl, rfl⟩ := Prod.mk.inj he
      simp only [turnsFrom, hh]
      exact .halted hh
    | none =>
      obtain ⟨e, s₂, hs, h⟩ := Outside.run_bind_eq.1 h
      cases e with
      | error f =>
        obtain ⟨he, rfl⟩ := Outside.run_pure_eq.1 h
        obtain ⟨rfl, rfl⟩ := Prod.mk.inj he
        simp only [turnsFrom, hh, completed?_of_error hs]
        exact .failed hh hs
      | ok o =>
        obtain ⟨t, ht, rfl, rfl, rfl, rfl⟩ := completed?_of_ok hs
        simp only [turnsFrom, hh, ht]
        simp only [afterStep] at h
        cases hv : t.verdict with
        | some v' =>
          rw [show t.outcome.verdict = some v' from hv] at h
          obtain ⟨he, rfl⟩ := Outside.run_pure_eq.1 h
          obtain ⟨rfl, rfl⟩ := Prod.mk.inj he
          exact .ended hh hv
        | none =>
          rw [show t.outcome.verdict = none from hv] at h
          exact .goesOn hh hv (ih h)

namespace Course

variable {left : Nat} {state final : RunState} {s s' : Session σ} {v : Option Verdict}
  {turns : List (a.CompletedTurn runId policy)}

/-- **The course is that of the loop.** -/
theorem loop_run (h : a.Course runId policy left state s turns v final s') :
    (a.loop runId policy left state).run s = ((v, final), s') := by
  induction h with
  | halted halt => exact loop_of_halt halt
  | failed halt step => exact loop_of_fault halt step
  | @ended left s t v halt hv => exact loop_of_verdict halt t.completes hv
  | @goesOn left s s' t turns v final halt hv rest ih =>
    exact (loop_of_next halt t.completes hv).trans ih

/-- **Every completed turn is counted once.** -/
theorem turnIndex (h : a.Course runId policy left state s turns v final s') :
    final.turnIndex = state.turnIndex + turns.length := by
  induction h with
  | halted | failed => rfl
  | ended => exact CompletedTurn.next_turnIndex _
  | @goesOn left s s' t turns v final halt hv rest ih =>
    rw [ih, t.next_turnIndex, List.length_cons]
    omega

/-- **The budget of a run never changes.** -/
theorem budget (h : a.Course runId policy left state s turns v final s') :
    final.budget = state.budget := by
  induction h with
  | halted | failed => rfl
  | ended => exact CompletedTurn.next_budget _
  | @goesOn left s s' t turns v final halt hv rest ih => rw [ih, t.next_budget]

/-- **The goal of a run never changes.** -/
theorem goal (h : a.Course runId policy left state s turns v final s') :
    final.goal = state.goal := by
  induction h with
  | halted | failed => rfl
  | ended => exact CompletedTurn.next_goal _
  | @goesOn left s s' t turns v final halt hv rest ih => rw [ih, t.next_goal]

theorem head_before (h : a.Course runId policy left state s turns v final s') :
    ∀ t ∈ turns.head?, t.before = state := by
  cases h <;> simp

/-- **Every turn begins in the state that the one before has left, and only the last turn gives a
verdict.** -/
theorem linked (h : a.Course runId policy left state s turns v final s') :
    turns.IsChain CompletedTurn.Precedes := by
  induction h with
  | halted | failed => exact .nil
  | ended => exact .singleton _
  | goesOn halt hv rest ih =>
    refine List.isChain_cons.2 ⟨fun u hu => ⟨hv, rest.head_before u hu⟩, ih⟩

/-- **After a turn that gave no verdict the loop goes on from what the turn has left.** -/
theorem cut {before after : List (a.CompletedTurn runId policy)} {t : a.CompletedTurn runId policy}
    (h : a.Course runId policy left state s (before ++ t :: after) v final s')
    (hv : t.verdict = none) :
    ∃ n, left = before.length + 1 + n ∧
      a.Course runId policy n t.next t.after after v final s' := by
  induction before generalizing left state s with
  | nil =>
    cases h with
    | ended halt hv' => rw [hv] at hv'; cases hv'
    | goesOn halt hv' rest => exact ⟨_, by simp; omega, rest⟩
  | cons t₀ before ih =>
    rw [List.cons_append] at h
    -- the list is an index of the course, so it has to be a variable when cases are told apart
    generalize hl : before ++ t :: after = turns at h
    cases h with
    | ended halt hv' => cases before <;> cases hl
    | goesOn halt hv' rest =>
      obtain ⟨n, hn, hc⟩ := ih (hl ▸ rest)
      exact ⟨n, by rw [List.length_cons]; omega, hc⟩

/-- **What follows is the course of a loop that begins in the state the turn has left**, with as
many turns as the budget has left there. -/
theorem cut_remaining {before after : List (a.CompletedTurn runId policy)}
    {t : a.CompletedTurn runId policy}
    (h : a.Course runId policy (state.budget.remaining state.turnIndex) state s
      (before ++ t :: after) v final s') (hv : t.verdict = none) :
    a.Course runId policy (t.next.budget.remaining t.next.turnIndex) t.next t.after after v final
      s' := by
  obtain ⟨n, hn, hrest⟩ := h.cut hv
  have hbudget : t.next.budget = state.budget := hrest.budget.symm.trans h.budget
  have hindex : t.next.turnIndex + after.length = state.turnIndex + (before ++ t :: after).length :=
    hrest.turnIndex.symm.trans h.turnIndex
  have hleft : t.next.budget.remaining t.next.turnIndex = n := by
    rw [List.length_append, List.length_cons] at hindex
    unfold Budget.remaining at hn ⊢
    rw [hbudget]
    omega
  rw [hleft]
  exact hrest

end Course

/-! ### The course of a run -/

variable (a runId) in
/-- The state in which a run begins. -/
def firstState (goal : Goal) (budget : Budget) (s : Session σ) : RunState :=
  ((a.begin_ runId goal budget).run s).1

variable (a runId) in
/-- The turns that a run completes. -/
def turns (goal : Goal) (budget : Budget) (policy : FailurePolicy) (s : Session σ) :
    List (a.CompletedTurn runId policy) :=
  let (state, s₁) := (a.begin_ runId goal budget).run s
  a.turnsFrom runId policy (state.budget.remaining state.turnIndex) state s₁

variable (a runId) in
/-- The outside after the end of a run: what was stored is removed, unless the run never ends. -/
def closed (v : Option Verdict) (s : Session σ) : Session σ :=
  match v with
  | some _ => ((Outside.clear a.store runId).run s).2
  | none => s

variable (a runId policy) in
/-- **A run takes the course of its turns from the state in which it begins.** -/
theorem run_course (goal : Goal) (budget : Budget) (s : Session σ) :
    ∃ first s₁ v final s₂, (a.begin_ runId goal budget).run s = (first, s₁) ∧
      a.Course runId policy (first.budget.remaining first.turnIndex) first s₁
        (a.turns runId goal budget policy s) v final s₂ ∧
      (a.run runId goal budget policy).run s = (v.map (⟨runId, ·, final⟩), a.closed runId v s₂) := by
  obtain ⟨first, s₁, hb⟩ : ∃ first s₁, (a.begin_ runId goal budget).run s = (first, s₁) :=
    ⟨_, _, rfl⟩
  obtain ⟨v, final, s₂, hl⟩ : ∃ v final s₂,
      (a.loop runId policy (first.budget.remaining first.turnIndex) first).run s₁ =
        ((v, final), s₂) := ⟨_, _, _, rfl⟩
  refine ⟨first, s₁, v, final, s₂, hb, ?_, ?_⟩
  · simp only [turns, hb]
    exact loop_course hl
  · unfold run
    rw [Outside.run_bind, hb, Outside.run_bind, hl]
    cases v <;> rfl

/-- Removing what is stored tells the subscribers nothing. -/
@[simp] theorem closed_events (v : Option Verdict) (s : Session σ) :
    (a.closed runId v s).events = s.events := by
  cases v with
  | none => rfl
  | some v =>
    unfold closed Outside.clear
    cases a.store with
    | none => rfl
    | some st =>
      exact (List.filterMap_append ..).trans (List.append_nil _)

end Agent

end Conductor

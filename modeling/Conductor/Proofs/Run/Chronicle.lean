import Conductor.Proofs.Run.Deeds
import Mathlib.Data.List.Forall2

/-!
# What is done in a run

The record of a run is put together from its turns: what each completed turn does, one after the
other, and then what was done in a turn that failed, if one did. Before it the store is asked, and
after it what was stored is removed.

* `Agent.halt?_does` : at the head of the loop nothing is done, and it is known why a run ends
  there;
* `Agent.begunFrom`, `Agent.begun` : the turns that a run begins;
* `Agent.Remnant` : what a turn that failed has left in the record;
* `Course.does` : **the record of the loop is that of its turns, and the remnant;**
* `Course.of_cancelled` : in a run that is cancelled, the loop ends at once;
* `Agent.Chronicle`, `Agent.exists_chronicle` : **all this of a whole run.**
-/

namespace Conductor

namespace Agent

open Outside Session

variable {σ : Type} {a : Agent σ} {runId : String} {policy : FailurePolicy}

/-! ### The head of the loop -/

section Head

variable {left : Nat} {state : RunState} {s s' : Session σ}

/-- **At the head of the loop nothing is done.** The run goes on only if it is not cancelled and has
turns left; it ends as cancelled if it is cancelled, and else because its budget is used up. -/
theorem halt?_does {r : Option String} (h : (a.halt? left state).run s = (r, s')) :
    s.Does [] s' ∧
      (r = none → s'.clock.cancelled = false ∧ state.turnIndex < state.budget.maxTurns) ∧
      ∀ reason, r = some reason →
        reason = if s'.clock.cancelled then stopCancelled else stopBudget := by
  obtain ⟨c, s₁, hl, h⟩ := run_bind_eq.1 h
  obtain ⟨hlook, hc⟩ := look_does hl
  cases c with
  | true =>
    obtain ⟨rfl, rfl⟩ := run_pure_eq.1 h
    refine ⟨hlook, nofun, ?_⟩
    rintro reason ⟨⟩
    rw [← hc, if_pos rfl]
  | false =>
    rw [if_neg Bool.false_ne_true] at h
    obtain ⟨e, s₂, he, h⟩ := run_bind_eq.1 h
    obtain ⟨hr, rfl⟩ := run_pure_eq.1 h
    obtain ⟨-, rfl⟩ := Prod.mk.inj he
    refine ⟨hlook.nil_trans (.of_eq rfl rfl rfl), ?_, ?_⟩
    · rintro rfl
      refine ⟨hc.symm, ?_⟩
      by_contra hfull
      have hex : state.budget.exhausted state.turnIndex e = true := by
        simp [Budget.exhausted, Nat.le_of_not_lt hfull]
      simp [hex] at hr
    · rintro reason rfl
      split at hr
      · obtain rfl := Option.some.inj hr
        change _ = if s₁.clock.cancelled then _ else _
        rw [← hc, if_neg Bool.false_ne_true]
      · cases hr

end Head

/-! ### The turns of the loop -/

variable (a runId policy) in
/-- The turns that the loop begins, with the outside in which each of them was begun. -/
def begunFrom : Nat → RunState → Session σ → List (RunState × Session σ)
  | 0, _, _ => []
  | left + 1, state, s =>
    match (a.halt? (left + 1) state).run s with
    | (some _, _) => []
    | (none, s₁) => (state, s₁) :: match (a.step runId policy state).run s₁ with
      | (.error _, _) => []
      | (.ok o, s₂) => match o.verdict with
        | some _ => []
        | none => begunFrom left o.next s₂

section Begun

variable {left : Nat} {state : RunState} {s s₁ s' : Session σ}

theorem begunFrom_of_halt {r : String} (h : (a.halt? left state).run s = (some r, s')) :
    a.begunFrom runId policy left state s = [] := by
  cases left <;> simp [begunFrom, h]

theorem begunFrom_of_fault {f : TurnFault} (h : (a.halt? (left + 1) state).run s = (none, s₁))
    (hs : (a.step runId policy state).run s₁ = (.error f, s')) :
    a.begunFrom runId policy (left + 1) state s = [(state, s₁)] := by
  simp [begunFrom, h, hs]

theorem begunFrom_of_verdict {t : a.CompletedTurn runId policy} {v : Verdict}
    (h : (a.halt? (left + 1) t.before).run s = (none, t.start)) (hv : t.verdict = some v) :
    a.begunFrom runId policy (left + 1) t.before s = [(t.before, t.start)] := by
  simp [begunFrom, h, t.completes, show t.outcome.verdict = some v from hv]

theorem begunFrom_of_next {t : a.CompletedTurn runId policy}
    (h : (a.halt? (left + 1) t.before).run s = (none, t.start)) (hv : t.verdict = none) :
    a.begunFrom runId policy (left + 1) t.before s =
      (t.before, t.start) :: a.begunFrom runId policy left t.next t.after := by
  simp only [begunFrom, h, t.completes, show t.outcome.verdict = none from hv]
  rfl

end Begun

/-- What was done in a completed turn. -/
def CompletedTurn.Did (t : a.CompletedTurn runId policy) (ds : List Happening) : Prop :=
  a.TurnDeeds runId t.before t.action ds

/-- What is done when the loop goes on to a turn that is completed. -/
theorem CompletedTurn.did_of_halt {t : a.CompletedTurn runId policy} {left : Nat} {s : Session σ}
    (halt : (a.halt? left t.before).run s = (none, t.start)) :
    ∃ ds, t.Did ds ∧ s.Does ds t.after := by
  obtain ⟨hhead, hnone, -⟩ := halt?_does halt
  obtain ⟨ds, hdid, hdoes⟩ := t.does (hnone rfl).1
  exact ⟨ds, hdid, hhead.nil_trans hdoes⟩

variable (a runId policy) in
/-- How the loop ended after its last completed turn: the turn that it has begun and that failed, if
there was one, and what this turn has left in the record. -/
inductive Remnant (final : RunState) (s' : Session σ) :
    Option Verdict → List (RunState × Session σ) → List Happening → Prop
  | whole {v : Verdict} : Remnant final s' (some v) [] []
  | broken {f : TurnFault} {s : Session σ} {ds : List Happening}
      (hstep : (a.step runId policy final).run s = (.error f, s')) (hshows : a.Shows f s')
      (hopen : s.clock.cancelled = false) (hindex : final.turnIndex < final.budget.maxTurns)
      (hds : a.FaultDeeds runId s policy final f ds) :
      Remnant final s' (verdictOfFault f) [(final, s)] ds

/-- What is left of a turn that failed is the last thing that the loop does. -/
theorem Remnant.eq_of_mem {final : RunState} {s' : Session σ} {v : Option Verdict}
    {failed : List (RunState × Session σ)} {rest : List Happening}
    (h : a.Remnant runId policy final s' v failed rest) {b : RunState × Session σ}
    (hb : b ∈ failed) :
    b.1 = final ∧ ∃ f, (a.step runId policy b.1).run b.2 = (.error f, s') ∧
      v = verdictOfFault f := by
  cases h with
  | whole => cases hb
  | broken hstep =>
    obtain rfl := List.mem_singleton.1 hb
    exact ⟨rfl, _, hstep, rfl⟩

namespace Course

variable {left : Nat} {state final : RunState} {s s' : Session σ} {v : Option Verdict}
  {turns : List (a.CompletedTurn runId policy)}

/-- **The record of the loop is that of its turns**, and what is left of one that failed. -/
theorem does (h : a.Course runId policy left state s turns v final s') :
    ∃ blocks failed rest, s.Does (blocks.flatten ++ rest) s' ∧
      List.Forall₂ CompletedTurn.Did turns blocks ∧
      a.Remnant runId policy final s' v failed rest ∧
      a.begunFrom runId policy left state s = turns.map (fun t => (t.before, t.start)) ++ failed ∧
      (failed ≠ [] → ∀ t ∈ turns, t.verdict = none) := by
  -- each case puts what its turn has done in front of what the rest of the course does
  induction h with
  | halted halt =>
    exact ⟨[], [], [], (halt?_does halt).1, .nil, .whole, begunFrom_of_halt halt, by simp⟩
  | @failed left state s s₁ s' f halt step =>
    obtain ⟨hhead, hnone, -⟩ := halt?_does halt
    obtain ⟨hc, hindex⟩ := hnone rfl
    obtain ⟨hshows, ds, hds, hdoes⟩ := a.step_fault_does step hc
    exact ⟨[], _, ds, hhead.nil_trans hdoes, .nil, .broken step hshows hc hindex hds,
      begunFrom_of_fault halt step, by simp⟩
  | @ended left s t v halt hv =>
    obtain ⟨ds, hdid, hdoes⟩ := t.did_of_halt halt
    refine ⟨[ds], [], [], ?_, .cons hdid .nil, .whole, begunFrom_of_verdict halt hv, ?_⟩
    · simpa using hdoes
    · exact fun hno => absurd rfl hno
  | @goesOn left s s' t turns v final halt hv rest ih =>
    obtain ⟨ds, hdid, hdoes⟩ := t.did_of_halt halt
    obtain ⟨blocks, failed, left, hrest, hblocks, hleft, hbegun, hnone⟩ := ih
    refine ⟨ds :: blocks, failed, left, ?_, .cons hdid hblocks, hleft, ?_, ?_⟩
    · rw [List.flatten_cons, List.append_assoc]
      exact hdoes.trans hrest
    · rw [begunFrom_of_next halt hv, hbegun, List.map_cons, List.cons_append]
    · intro hfailed u hu
      rcases List.mem_cons.1 hu with rfl | hu
      · exact hv
      · exact hnone hfailed u hu

/-- **A turn is begun only in a run that is not cancelled and has a turn left.** The turns are
numbered in order. -/
theorem begun_spec (h : a.Course runId policy left state s turns v final s') :
    ∀ k b, (a.begunFrom runId policy left state s)[k]? = some b →
      b.1.turnIndex = state.turnIndex + k ∧ b.1.turnIndex < state.budget.maxTurns ∧
        b.2.clock.cancelled = false := by
  -- the only turn that is begun, or the first of them
  have hfirst {left : Nat} {state : RunState} {s s₁ : Session σ} {b : RunState × Session σ}
      (halt : (a.halt? left state).run s = (none, s₁)) (hb : some (state, s₁) = some b) :
      b.1.turnIndex = state.turnIndex + 0 ∧ b.1.turnIndex < state.budget.maxTurns ∧
        b.2.clock.cancelled = false := by
    obtain rfl := Option.some.inj hb
    obtain ⟨hc, hindex⟩ := (halt?_does halt).2.1 rfl
    exact ⟨rfl, hindex, hc⟩
  induction h with
  | halted halt => simp [begunFrom_of_halt halt]
  | failed halt step =>
    intro k b hb
    rw [begunFrom_of_fault halt step] at hb
    cases k with
    | zero => exact hfirst halt hb
    | succ k => simp at hb
  | @ended left s t v halt hv =>
    intro k b hb
    rw [begunFrom_of_verdict halt hv] at hb
    cases k with
    | zero => exact hfirst halt hb
    | succ k => simp at hb
  | @goesOn left s s' t turns v final halt hv rest ih =>
    intro k b hb
    rw [begunFrom_of_next halt hv] at hb
    cases k with
    | zero => exact hfirst halt hb
    | succ k =>
      obtain ⟨hindex, hlt, hc⟩ := ih k b hb
      rw [t.next_turnIndex] at hindex
      rw [t.next_budget] at hlt
      exact ⟨by omega, hlt, hc⟩

/-- The loop ends in the state that the last completed turn has left. -/
theorem final_eq (h : a.Course runId policy left state s turns v final s') :
    final = (turns.getLast?.map CompletedTurn.next).getD state := by
  induction h with
  | halted | failed | ended => rfl
  | @goesOn left s s' t turns v final halt hv rest ih =>
    rw [ih, List.getLast?_cons]
    cases turns.getLast? <;> rfl

/-- **In a run that is cancelled, the loop ends at once.** -/
theorem of_cancelled (h : a.Course runId policy left state s turns v final s')
    (hc : s.clock.cancelled = true) :
    turns = [] ∧ v = some (stopped stopCancelled) ∧ final = state ∧ s.Does [] s' := by
  -- the loop cannot go on from its head
  have hno {left : Nat} {state : RunState} {s₁ : Session σ}
      (halt : (a.halt? left state).run s = (none, s₁)) : False := by
    obtain ⟨hhead, hnone, -⟩ := halt?_does halt
    rw [hhead.cancelled hc] at hnone
    cases (hnone rfl).1
  cases h with
  | halted halt =>
    obtain ⟨hhead, -, hsome⟩ := halt?_does halt
    have hr := hsome _ rfl
    rw [hhead.cancelled hc, if_pos rfl] at hr
    exact ⟨rfl, by rw [hr], rfl, hhead⟩
  | failed halt | ended halt | goesOn halt => exact (hno halt).elim

end Course

/-! ### Whole runs -/

variable (a runId) in
/-- The turns that a run begins, with the outside in which each of them was begun. -/
def begun (goal : Goal) (budget : Budget) (policy : FailurePolicy) (s : Session σ) :
    List (RunState × Session σ) :=
  let (state, s₁) := (a.begin_ runId goal budget).run s
  a.begunFrom runId policy (state.budget.remaining state.turnIndex) state s₁

/-- Before the first turn the store may be asked. -/
theorem begin_does {goal : Goal} {budget : Budget} {s s₁ : Session σ} {first : RunState}
    (h : (a.begin_ runId goal budget).run s = (first, s₁)) :
    ∃ loaded, (loaded = [] ∨ loaded = [.loaded runId]) ∧ s.Does loaded s₁ := by
  obtain ⟨x, s₂, hl, h⟩ := run_bind_eq.1 h
  have hs : s₂ = s₁ := by
    split at h <;> exact (run_pure_eq.1 h).2
  subst hs
  unfold Outside.load at hl
  split at hl
  · obtain ⟨-, rfl⟩ := run_pure_eq.1 hl
    exact ⟨[], .inl rfl, .refl s⟩
  · obtain ⟨c, s₁, hlook, hl⟩ := run_bind_eq.1 hl
    obtain ⟨hdoes, -⟩ := look_does hlook
    cases c with
    | true =>
      obtain ⟨-, rfl⟩ := run_pure_eq.1 hl
      exact ⟨[], .inl rfl, hdoes⟩
    | false =>
      rw [if_neg Bool.false_ne_true] at hl
      exact ⟨_, .inr rfl, hdoes.nil_trans (operate_does hl rfl rfl rfl)⟩

variable (a runId) in
/-- After the last turn what was stored may be removed. -/
theorem closed_does (v : Option Verdict) (s : Session σ) :
    ∃ cleared, (cleared = [] ∨ cleared = [.cleared runId]) ∧
      s.Does cleared (a.closed runId v s) := by
  cases v with
  | none => exact ⟨[], .inl rfl, .refl s⟩
  | some v =>
    unfold closed Outside.clear
    cases a.store with
    | none => exact ⟨[], .inl rfl, .refl s⟩
    | some st =>
      rcases h : (operate (.cleared runId) (st.clear runId)).run s with ⟨e, s'⟩
      have hcleared := operate_does h rfl rfl rfl
      exact ⟨_, .inr rfl, by simpa only [h] using hcleared⟩

/-- How a run went, and what was done in it. -/
structure Chronicle (a : Agent σ) (runId : String) (goal : Goal) (budget : Budget)
    (policy : FailurePolicy) (s : Session σ) where
  /-- The state in which the run began. -/
  first : RunState
  /-- The outside when the loop began. -/
  opened : Session σ
  verdict : Option Verdict
  final : RunState
  /-- The outside when the loop ended. -/
  ended : Session σ
  loaded : List Happening
  /-- What was done in the completed turns. -/
  blocks : List (List Happening)
  /-- The turn that failed, and what was done in it. -/
  failed : List (RunState × Session σ)
  rest : List Happening
  cleared : List Happening
  begins : (a.begin_ runId goal budget).run s = (first, opened)
  course : a.Course runId policy (first.budget.remaining first.turnIndex) first opened
    (a.turns runId goal budget policy s) verdict final ended
  runs : (a.run runId goal budget policy).run s =
    (verdict.map (⟨runId, ·, final⟩), a.closed runId verdict ended)
  loads : loaded = [] ∨ loaded = [.loaded runId]
  opens : s.Does loaded opened
  did : List.Forall₂ CompletedTurn.Did (a.turns runId goal budget policy s) blocks
  breaks : a.Remnant runId policy final ended verdict failed rest
  does : opened.Does (blocks.flatten ++ rest) ended
  begun : a.begun runId goal budget policy s =
    (a.turns runId goal budget policy s).map (fun t => (t.before, t.start)) ++ failed
  open_of_failed : failed ≠ [] → ∀ t ∈ a.turns runId goal budget policy s, t.verdict = none
  clears : cleared = [] ∨ cleared = [.cleared runId]
  closes : ended.Does cleared (a.closed runId verdict ended)

variable (a runId policy) in
/-- **Every run has its chronicle.** -/
theorem exists_chronicle (goal : Goal) (budget : Budget) (s : Session σ) :
    Nonempty (a.Chronicle runId goal budget policy s) := by
  obtain ⟨first, opened, v, final, ended, hb, hc, hrun⟩ := a.run_course runId policy goal budget s
  obtain ⟨loaded, hloads, hopens⟩ := begin_does hb
  obtain ⟨blocks, failed, rest, hdoes, hdid, hbreaks, hbegun, hopen⟩ := hc.does
  obtain ⟨cleared, hclears, hcloses⟩ := a.closed_does runId v ended
  exact ⟨{
    first, opened, verdict := v, final, ended, loaded, blocks, failed, rest, cleared
    begins := hb, course := hc, runs := hrun, loads := hloads, opens := hopens, did := hdid
    breaks := hbreaks, does := hdoes, begun := by simp only [Agent.begun, hb, hbegun]
    open_of_failed := hopen, clears := hclears, closes := hcloses }⟩

namespace Chronicle

variable {goal : Goal} {budget : Budget} {s : Session σ}
  (c : a.Chronicle runId goal budget policy s)

/-- **What is done in a run**: the store may be asked, then come the turns, one after the other,
then what is left of one that failed, and then what was stored may be removed. -/
theorem record : s.Does (c.loaded ++ (c.blocks.flatten ++ c.rest) ++ c.cleared)
    (a.closed runId c.verdict c.ended) :=
  (c.opens.trans c.does).trans c.closes

theorem firstState_eq : a.firstState runId goal budget s = c.first := by
  rw [firstState, c.begins]

/-- The turns that the run begins are those that its loop begins. -/
theorem begunFrom_eq :
    a.begunFrom runId policy (c.first.budget.remaining c.first.turnIndex) c.first c.opened =
      a.begun runId goal budget policy s := by
  rw [Agent.begun, c.begins]

/-- A turn is begun only in a run that is not cancelled and has a turn left. -/
theorem begun_spec : ∀ k b, (a.begun runId goal budget policy s)[k]? = some b →
    b.1.turnIndex = c.first.turnIndex + k ∧ b.1.turnIndex < c.first.budget.maxTurns ∧
      b.2.clock.cancelled = false := by
  rw [← c.begunFrom_eq]
  exact c.course.begun_spec

theorem before_turnIndex {k : Nat} {t : a.CompletedTurn runId policy}
    (h : (a.turns runId goal budget policy s)[k]? = some t) :
    t.before.turnIndex = c.first.turnIndex + k := by
  refine (c.begun_spec k (t.before, t.start) ?_).1
  have hk := (List.getElem?_eq_some_iff.1 h).1
  rw [c.begun, List.getElem?_append_left (by simpa using hk), List.getElem?_map, h, Option.map_some]

end Chronicle

end Agent

end Conductor

import Conductor.Proofs.Run.Finished
import Conductor.Proofs.Run.Storing

/-!
# Runs of which a state was saved

A run goes on from the state that its store has. The store is asked for it in a race with the
cancellation, and a run that finds itself cancelled at the look for this race begins afresh, as if
nothing had been saved. So it does no turn, reports the goal, the budget and the turns of a new run,
and removes what was saved.

* `Report.Continues` : what is reported at the end is the end of a run that was saved;
* `Agent.begin_of_cancelled` : a run that is cancelled begins without what its store has;
* `Agent.run_of_cancelled` : and so it ends, and its store forgets it;
* `Agent.saved_continues_iff` : **a saved run is continued just if it is not cancelled at the look
  for its store** (`Agent.cancelled_run_starts_over`).
-/

namespace Conductor

/-- The report is of a run that has gone on from a state: it has the goal and the budget of this
state, and its turns are counted on. -/
structure Report.Continues (r : Report) (saved : RunState) : Prop where
  goal : r.state.goal = saved.goal
  budget : r.state.budget = saved.budget
  turns : saved.turnIndex ≤ r.totalTurns

namespace Agent

open Outside Session

variable {σ : Type} {a : Agent σ} {st : StateStore σ} {runId : String} {policy : FailurePolicy}
  {s s' : Session σ} {saved : RunState} {goal : Goal} {budget : Budget} {report : Report}

/-- **A run that is cancelled begins afresh**, whatever its store has, and does not ask the store. -/
theorem begin_of_cancelled (hstore : a.store = some st) (hc : s.clock.look.cancelled = true)
    (goal : Goal) (budget : Budget) :
    (a.begin_ runId goal budget).run s = (.initial goal budget, s.withClock s.clock.look) := by
  have hlook : Outside.look.run s = (true, s.withClock s.clock.look) := Prod.ext hc rfl
  simp only [begin_, Outside.load, hstore, run_bind, hlook, if_true]
  rfl

/-- **The report of a run that is cancelled before its store is asked is that of a new run**, and
all that the run does is to remove what its store has. -/
theorem run_of_cancelled (hstore : a.store = some st) (hc : s.clock.look.cancelled = true)
    (hrun : (a.run runId goal budget policy).run s = (some report, s')) :
    report = ⟨runId, stopped stopCancelled, .initial goal budget⟩ ∧
      s.Does [.cleared runId] s' ∧ s'.store = (st.clear runId s.store).2 := by
  obtain ⟨first, s₁, v, final, s₂, hb, hcourse, hrun'⟩ := a.run_course runId policy goal budget s
  obtain ⟨rfl, rfl⟩ := Prod.mk.inj (hb.symm.trans (begin_of_cancelled hstore hc goal budget))
  obtain ⟨hturns, rfl, rfl, hnothing⟩ := hcourse.of_cancelled hc
  obtain ⟨hreport, rfl⟩ := Prod.mk.inj (hrun.symm.trans hrun')
  -- nothing is done between the look before the store is asked and the end of the loop
  obtain ⟨ds, hkeeps, hsteps, -⟩ := hcourse.keeps hstore
  rw [hturns] at hsteps
  have hstored : s₂.store = s.store := by
    rw [hkeeps.store, hsteps]
    rfl
  have hcloses := a.closed_keeps runId hstore (some (stopped stopCancelled)) s₂
  have hlooked : s.Does [] (s.withClock s.clock.look) := (look_does (Prod.ext hc rfl)).1
  refine ⟨Option.some.inj hreport, hlooked.nil_trans (hnothing.nil_trans hcloses.toDoes), ?_⟩
  rw [hcloses.store, hstored]
  rfl

/-- A run that is not cancelled at the look for its store goes on from what the store has. -/
theorem continues_of_open (hstore : a.store = some st)
    (hload : (st.load runId s.store).1 = .ok (some saved)) (hopen : s.clock.look.cancelled = false)
    (hrun : (a.run runId goal budget policy).run s = (some report, s')) :
    report.Continues saved := by
  obtain ⟨first, s₁, v, final, s₂, hb, hcourse, hrun'⟩ := a.run_course runId policy goal budget s
  obtain ⟨opened, hbegin, -⟩ := begin_of_load hstore hload hopen goal budget
  obtain ⟨rfl, rfl⟩ := Prod.mk.inj (hbegin.symm.trans hb)
  obtain ⟨verdict, -, rfl⟩ := Option.map_eq_some_iff.1 (Prod.mk.inj (hrun'.symm.trans hrun)).1
  have hturns : saved.turnIndex ≤ final.turnIndex := by
    rw [hcourse.turnIndex]
    exact Nat.le_add_right ..
  exact ⟨hcourse.goal, hcourse.budget, hturns⟩

/-- **A saved run is continued just if it is not cancelled at the look for its store**, which decides
the whole race with the answer, or has the goal and the budget of a new run and no turn. If the run
is cancelled at this look, its report is that of a new run, and what was saved is removed. -/
theorem saved_continues_iff (hstore : a.store = some st)
    (hload : (st.load runId s.store).1 = .ok (some saved))
    (hrun : (a.run runId goal budget policy).run s = (some report, s')) :
    (report.Continues saved ↔ s.clock.look.cancelled = false ∨
      (goal = saved.goal ∧ budget = saved.budget ∧ saved.turnIndex = 0)) ∧
    (s.clock.look.cancelled = true →
      report = ⟨runId, stopped stopCancelled, .initial goal budget⟩ ∧
        s.Does [.cleared runId] s' ∧ s'.store = (st.clear runId s.store).2) := by
  refine ⟨?_, fun hc => run_of_cancelled hstore hc hrun⟩
  cases hc : s.clock.look.cancelled with
  | false => exact iff_of_true (continues_of_open hstore hload hc hrun) (.inl rfl)
  | true =>
    obtain ⟨rfl, -⟩ := run_of_cancelled hstore hc hrun
    constructor
    · intro h
      exact .inr ⟨h.goal, h.budget, Nat.le_zero.1 h.turns⟩
    · rintro (h | ⟨rfl, rfl, hnone⟩)
      · cases h
      · exact ⟨rfl, rfl, Nat.le_of_eq hnone⟩

open StateStore (Table)

/-- A state after one turn of a run with another goal. -/
def halfway : RunState :=
  { RunState.initial ⟨"find more", [], default⟩ .standard with turnIndex := 1 }

/-- An outside whose store has such a state, in which the run is cancelled from the beginning. -/
def withHalfway : Session Table :=
  .start (.start true .never) [] (Keyed.empty.insert "run" halfway)

theorem saved_continues_iff_quitter :
    ∃ report s', (quitter.run "run" .rehearsed .standard .standard).run withHalfway =
        (some report, s') ∧ ¬ report.Continues halfway ∧ s'.store = .empty := by
  have hload : (StateStore.memory.load "run" withHalfway.store).1 =
      .ok (some halfway) := rfl
  obtain ⟨report, s', hrun⟩ : ∃ report s',
      (quitter.run "run" .rehearsed .standard .standard).run withHalfway =
        (some report, s') := ⟨_, _, rfl⟩
  obtain ⟨hiff, hcancelled⟩ := saved_continues_iff rfl hload hrun
  refine ⟨report, s', hrun, ?_, (hcancelled rfl).2.2⟩
  rw [hiff]
  rintro (h | ⟨-, -, h⟩) <;> cases h

/-- A saved run is lost when it is cancelled too early: it starts over, without a turn. -/
theorem cancelled_run_starts_over : ¬ ∀ (a : Agent Table) (runId : String) (goal : Goal)
    (budget : Budget) (policy : FailurePolicy) (s s' : Session Table) (saved : RunState)
    (report : Report), a.store = some .memory → s.store.get? runId = some saved →
    (a.run runId goal budget policy).run s = (some report, s') →
    report.state.goal = saved.goal ∧ report.state.budget = saved.budget ∧
      saved.turnIndex ≤ report.totalTurns := by
  intro hno
  have hlate := (hno quitter "run" .rehearsed .standard .standard withHalfway _ halfway _ rfl
    rfl rfl).2.2
  exact absurd hlate (by decide)

end Agent

end Conductor

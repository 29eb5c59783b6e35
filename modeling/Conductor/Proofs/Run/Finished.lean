import Conductor.Proofs.Run.Accounts
import Conductor.Proofs.Run.Resumption

/-!
# Finished runs that are begun again

The last turn of a run is stored like every other, and what is stored is removed only afterwards. A
state that has settled its run can therefore be found by a second run. Nothing looks at what it has
settled: only its budget decides whether the run goes on.

* `RunState.Finished` : the state settles its run;
* `Agent.begin_of_load` : a run begins in the state that its store gives;
* `Course.opens`, `Course.of_halt` : a loop opens a turn, or does nothing;
* `Agent.finished_reopens` : **a run that finds the state of a finished one asks its model for one
  more turn, exactly if the budget allows it.**
-/

namespace Conductor

namespace RunState

/-- The last turn has settled the run: it has stopped or asked the user, or the critic has found the
goal satisfied. -/
def Finished (s : RunState) : Prop :=
  (∃ r, s.lastAction = some (.stop r)) ∨ s.Asked ∨ s.Satisfied

end RunState

/-- What is recorded is what was done, and the cancellation. -/
theorem isStart_of_deeds {hs : List Happening} (h : ∀ x ∈ deeds hs, x.isStart = false) :
    ∀ x ∈ hs, x.isStart = false := by
  intro x hx
  by_cases hc : x.isCancelled = true
  · cases x with
    | cancelled => rfl
    | _ => cases hc
  · exact h x (List.mem_filter.2 ⟨hx, by simpa using hc⟩)

namespace Agent

open Outside Session

variable {σ : Type} {a : Agent σ} {runId : String} {policy : FailurePolicy}

/-! ### The turn that ends a run -/

/-- **A turn gives a verdict exactly if its state settles the run.** -/
theorem CompletedTurn.finished_iff (t : a.CompletedTurn runId policy) :
    t.next.Finished ↔ t.verdict ≠ none := by
  rw [Ne, t.verdict_eq_none_iff, RunState.Finished, RunState.Asked, t.next_lastAction]
  cases t.action <;> simp [Action.isWork]

/-! ### How a run begins and goes on -/

/-- **A run begins in the state that its store gives**, unless it is cancelled by then. -/
theorem begin_of_load {st : StateStore σ} {s : Session σ} {state : RunState}
    (hstore : a.store = some st) (hload : (st.load runId s.store).1 = .ok (some state))
    (hopen : s.clock.look.cancelled = false) (goal : Goal) (budget : Budget) :
    ∃ opened, (a.begin_ runId goal budget).run s = (state, opened) ∧
      s.Does [.loaded runId] opened ∧ opened.clock.cancelled = false ∧
      opened.readings = s.readings := by
  have hlook : Outside.look.run s = (false, s.withClock s.clock.look) := Prod.ext hopen rfl
  obtain ⟨hlooked, -⟩ := look_does hlook
  rcases hop : (operate (.loaded runId) (st.load runId)).run (s.withClock s.clock.look) with
    ⟨e, opened⟩
  have hloaded := hlooked.nil_trans (operate_does hop rfl rfl rfl)
  have he : e = .ok (some state) := by
    have h : ((st.load runId s.store).1.mapError .failed : Except StoreFault _) = e :=
      congrArg Prod.fst hop
    rw [← h, hload]
    rfl
  have hclock : opened.clock = s.clock.look := (congrArg (·.2.clock) hop).symm
  have hreadings : opened.readings = s.readings := (congrArg (·.2.readings) hop).symm
  refine ⟨opened, ?_, hloaded, by rw [hclock]; exact hopen, hreadings⟩
  simp only [begin_, Outside.load, hstore, run_bind, hlook, Bool.false_eq_true, if_false, hop, he]
  rfl

section Quiet

variable {s : Session σ} {state : RunState}

/-- Looking finds that the run is not cancelled. -/
theorem look_of_never (hn : s.clock.signal = .never) (hc : s.clock.cancelled = false) :
    Outside.look.run s = (false, s.withClock s.clock.look) := by
  change (s.clock.look.cancelled, _) = _
  rw [Clock.look_of_never hn, hc]

variable (a) in
/-- What the loop looks at before a turn is the budget alone. -/
theorem head?_of_never (state : RunState) (hn : s.clock.signal = .never)
    (hc : s.clock.cancelled = false) :
    ((a.head? state).run s).1 =
      if state.budget.exhausted state.turnIndex (a.elapsed s.readings) then some stopBudget
      else none := by
  rw [head?, run_bind, look_of_never hn hc]
  rfl

end Quiet

/-- **A loop that goes on opens a turn**, if no signal comes. -/
theorem Course.opens {left : Nat} {state final : RunState} {s s₁ s' : Session σ}
    {v : Option Verdict} {turns : List (a.CompletedTurn runId policy)}
    (h : a.Course runId policy left state s turns v final s')
    (hgo : (a.halt? left state).run s = (none, s₁)) (hn : s.clock.signal = .never) :
    ∃ ds, s.Does (a.opening runId state ++ ds) s' := by
  cases h with
  | halted halt => cases (Prod.mk.inj (halt.symm.trans hgo)).1
  | failed halt step =>
    obtain ⟨hhead, hnone, -⟩ := halt?_does halt
    obtain ⟨-, ds, hds, hdoes⟩ := a.step_fault_does step (hnone rfl).1
    have hrest := hhead.nil_trans hdoes
    cases hds with
    | unasked hsignal =>
      rw [hhead.signal] at hsignal
      exact absurd hn hsignal
    | undone => exact ⟨[], by simpa using hrest⟩
    | unjudged => exact ⟨_, hrest⟩
  | @ended left s t v halt hv =>
    obtain ⟨ds, hdid, hdoes⟩ := t.did_of_halt halt
    cases hdid
    exact ⟨_, by simpa only [List.append_assoc] using hdoes⟩
  | @goesOn left s s' t turns v final halt hv rest =>
    obtain ⟨ds, hdid, hdoes⟩ := t.did_of_halt halt
    obtain ⟨blocks, failed, later, hlater, -⟩ := rest.does
    cases hdid
    exact ⟨_, by simpa only [List.append_assoc] using hdoes.trans hlater⟩

/-- A loop that does not go on does nothing. -/
theorem Course.of_halt {left : Nat} {state final : RunState} {s s₁ s' : Session σ}
    {v : Option Verdict} {turns : List (a.CompletedTurn runId policy)} {r : String}
    (h : a.Course runId policy left state s turns v final s')
    (hhalt : (a.halt? left state).run s = (some r, s₁)) : s.Does [] s' := by
  cases h with
  | halted halt => exact (halt?_does halt).1
  | failed halt | ended halt | goesOn halt => cases (Prod.mk.inj (halt.symm.trans hhalt)).1

/-! ### The second run -/

variable {τ : Type} {a' : Agent τ} {st : StateStore τ} {r : Session τ}

/-- **A run that finds a state goes on from it exactly if the budget of the state allows it.** -/
theorem run_of_load {state : RunState} (hstore : a'.store = some st)
    (hload : (st.load runId r.store).1 = .ok (some state)) (hn : r.clock.signal = .never)
    (hc : r.clock.cancelled = false) (goal : Goal) (budget : Budget) :
    ∃ told r' hs, (a'.run runId goal budget policy).run r = (told, r') ∧
      r'.trace = r.trace ++ hs ∧
      if state.budget.exhausted state.turnIndex (a'.elapsed r.readings) then
        ∀ h ∈ hs, h.isStart = false
      else .loaded runId :: a'.opening runId state <+: deeds hs := by
  obtain ⟨first, r₁, v, final, r₂, hb, hcourse, hrun⟩ := a'.run_course runId policy goal budget r
  obtain ⟨opened, hbegin, hloaded, hopen, hreadings⟩ :=
    begin_of_load (a := a') hstore hload (by rwa [Clock.look_of_never hn]) goal budget
  obtain ⟨rfl, rfl⟩ := Prod.mk.inj (hb.symm.trans hbegin)
  have hn₁ : r₁.clock.signal = .never := hloaded.signal.trans hn
  -- what the head of the loop says decides between the two cases
  have hhead := a'.head?_of_never first hn₁ hopen
  rw [← halt?_remaining, hreadings] at hhead
  obtain ⟨cleared, hcleared, hcloses⟩ := a'.closed_does runId v r₂
  rcases hhalt : (a'.halt? (first.budget.remaining first.turnIndex) first).run r₁ with ⟨x, r₃⟩
  rw [hhalt] at hhead
  by_cases hex : first.budget.exhausted first.turnIndex (a'.elapsed r.readings) = true
  · rw [if_pos hex] at hhead
    subst hhead
    have hdoes := hloaded.trans ((hcourse.of_halt hhalt).nil_trans hcloses)
    obtain ⟨hs, htrace, hdeeds, -⟩ := hdoes.record
    refine ⟨_, _, hs, hrun, htrace, ?_⟩
    rw [if_pos hex]
    refine isStart_of_deeds fun x hx => ?_
    rw [hdeeds] at hx
    rcases hcleared with rfl | rfl
    · obtain rfl : x = .loaded runId := by simpa using hx
      rfl
    · rcases (by simpa using hx : x = .loaded runId ∨ x = .cleared runId) with rfl | rfl <;> rfl
  · rw [if_neg hex] at hhead
    subst hhead
    obtain ⟨ds, hopens⟩ := hcourse.opens hhalt hn₁
    obtain ⟨hs, htrace, hdeeds, -⟩ := ((hloaded.trans hopens).trans hcloses).record
    refine ⟨_, _, hs, hrun, htrace, ?_⟩
    rw [if_neg hex, hdeeds]
    exact ⟨ds ++ cleared, by simp⟩

/-- **A finished run is begun again.** A run ends with the turn that settles it. But a run that
finds the state of this turn, whatever its agent and its store, asks the model for one more turn
exactly if the budget in the state is not used up: what the state has settled is not looked at. -/
theorem finished_reopens {goal : Goal} {budget : Budget} {s : Session σ}
    {t : a.CompletedTurn runId policy} (ht : t ∈ a.turns runId goal budget policy s)
    (hfinished : t.next.Finished) (hstore : a'.store = some st)
    (hload : (st.load runId r.store).1 = .ok (some t.next)) (hn : r.clock.signal = .never)
    (hc : r.clock.cancelled = false) (goal' : Goal) (budget' : Budget)
    (policy' : FailurePolicy) :
    (∃ report s', (a.run runId goal budget policy).run s = (some report, s') ∧
      t.verdict = some report.verdict ∧ report.state = t.next) ∧
    ∃ told r' hs, (a'.run runId goal' budget' policy').run r = (told, r') ∧
      r'.trace = r.trace ++ hs ∧
      if t.next.budget.exhausted t.next.turnIndex (a'.elapsed r.readings) then
        ∀ h ∈ hs, h.isStart = false
      else .loaded runId :: a'.opening runId t.next <+: deeds hs := by
  refine ⟨?_, run_of_load hstore hload hn hc goal' budget'⟩
  obtain ⟨first, s₁, v, final, s₂, -, hcourse, hrun⟩ := a.run_course runId policy goal budget s
  obtain ⟨hv, rfl, -⟩ := hcourse.eq_of_verdict ht (t.finished_iff.1 hfinished)
  obtain ⟨verdict, hverdict⟩ := Option.ne_none_iff_exists'.1 (t.finished_iff.1 hfinished)
  rw [hv, hverdict] at hrun
  exact ⟨_, _, hrun, hverdict, rfl⟩

open StateStore (Table)

/-- Stops at once. -/
def quitter : Agent Table := .rehearsed [] [.stops "nothing left to do"]

/-- What a second run of the same agent finds when the first one was broken off after this turn. -/
def CompletedTurn.found {a : Agent Table} (t : a.CompletedTurn runId policy) : Session Table :=
  .start (.start false .never) [] t.after.store

theorem quitter_run : ∃ t ∈ quitter.turns "run" .rehearsed .standard .standard .rehearsed,
    t.verdict ≠ none ∧ t.after.clock.cancelled = false ∧
      t.next.turnIndex < t.next.budget.maxTurns ∧
      t.next.budget.exhausted t.next.turnIndex .zero = false ∧
      ∃ h ∈ ((quitter.run "run" .rehearsed .standard .standard).run t.found).2.trace,
        h.isStart = true := by decide +kernel

theorem finished_reopens_quitter :
    ∃ t ∈ quitter.turns "run" .rehearsed .standard .standard .rehearsed, t.next.Finished ∧
      ∃ told r' hs, (quitter.run "run" .rehearsed .standard .standard).run t.found = (told, r') ∧
        r'.trace = hs ∧ .loaded "run" :: quitter.opening "run" t.next <+: deeds hs := by
  obtain ⟨t, ht, hverdict, hcancelled, -, hbudget, -⟩ := quitter_run
  have hfinished := t.finished_iff.2 hverdict
  have hstore : quitter.store = some StateStore.memory := rfl
  have hload : (StateStore.memory.load "run" t.found.store).1 = .ok (some t.next) :=
    congrArg Except.ok (t.stored rfl hcancelled)
  obtain ⟨-, told, r', hs, hrun, htrace, hgoes⟩ := finished_reopens ht hfinished hstore hload rfl
    rfl .rehearsed .standard .standard
  have hopen : ¬ t.next.budget.exhausted t.next.turnIndex
      (quitter.elapsed t.found.readings) = true := by
    change ¬ t.next.budget.exhausted t.next.turnIndex .zero = true
    rw [hbudget]
    exact Bool.false_ne_true
  rw [if_neg hopen] at hgoes
  exact ⟨t, ht, hfinished, told, r', hs, hrun, htrace, hgoes⟩

/-- A finished run can be continued: `quitter`, broken off after its stop, asks its model again. -/
theorem finished_run_continues : ¬ ∀ (a : Agent Table) (runId : String) (goal : Goal)
    (budget : Budget) (policy : FailurePolicy) (s : Session Table),
    ∀ t ∈ a.turns runId goal budget policy s, t.next.Finished →
      t.after.clock.cancelled = false → t.next.turnIndex < t.next.budget.maxTurns →
      ∀ h ∈ ((a.run runId goal budget policy).run t.found).2.trace, h.isStart = false := by
  intro hno
  obtain ⟨t, ht, hverdict, hcancelled, hleft, -, h, hh, hstart⟩ := quitter_run
  have hidle := hno quitter "run" .rehearsed .standard .standard .rehearsed t ht
    (t.finished_iff.2 hverdict) hcancelled hleft h hh
  rw [hstart] at hidle
  cases hidle

end Agent

end Conductor

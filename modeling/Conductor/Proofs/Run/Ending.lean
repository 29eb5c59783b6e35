import Conductor.Proofs.Run.Course
import Conductor.Proofs.Run.Rehearsed
import Conductor.Proofs.Text.Occurrence

/-!
# How a run ends

A run leaves its loop in many ways, each with its own verdict. The verdict is nevertheless a
function of the state in which the run ended, if the run began in a new state: as long as the loop
goes on, the last action was a call or a new plan, and no critique was satisfied.

* `RunState.Open` : the invariant of the loop;
* `Yields.verdict_eq_none_iff` : a turn leaves its run open exactly when it gives no verdict;
* `Course.faithful`, `Agent.run_faithful` : **success, phase and final state agree, and nothing is
  done after a turn that settles the run.**
-/

namespace Conductor

/-- A call or a new plan: what does not end a run by itself. -/
def Action.isWork : Action → Bool
  | .callTool _ _ _ | .replan _ => true
  | .askUser _ _ | .stop _ => false

/-- The text contains "achieved", in small letters or not. -/
def MentionsAchieved (s : String) : Prop := "achieved".toList <:+: Text.lowerChars s.toList

instance (s : String) : Decidable (MentionsAchieved s) :=
  inferInstanceAs (Decidable ("achieved".toList <:+: Text.lowerChars s.toList))

theorem claimsAchievement_iff {reason : String} :
    claimsAchievement reason = true ↔ MentionsAchieved reason := Text.occursIn_iff

example : MentionsAchieved "Not yet Achieved" := by decide

namespace RunState

/-- The last critique was satisfied. -/
def Satisfied (s : RunState) : Prop := ∃ c, s.lastCritique = some c ∧ c.goalSatisfied = true

/-- The last action was a stop whose reason contains "achieved", in small letters or not. -/
def StoppedAchieved (s : RunState) : Prop :=
  ∃ r, s.lastAction = some (.stop r) ∧ MentionsAchieved r

/-- The last action was a question to the user. -/
def Asked (s : RunState) : Prop := ∃ q fields, s.lastAction = some (.askUser q fields)

/-- Nothing has happened that settles the run. -/
structure Open (s : RunState) : Prop where
  isWork : ∀ action ∈ s.lastAction, action.isWork = true
  unsatisfied : ¬ s.Satisfied

theorem open_initial (goal : Goal) (budget : Budget) : (initial goal budget).Open where
  isWork := by simp [initial]
  unsatisfied := by simp [initial, Satisfied]

variable {s : RunState}

theorem Open.not_stoppedAchieved (h : s.Open) : ¬ s.StoppedAchieved := by
  rintro ⟨r, hr, -⟩
  cases h.isWork _ hr

theorem Open.not_asked (h : s.Open) : ¬ s.Asked := by
  rintro ⟨q, fields, hq⟩
  cases h.isWork _ hq

end RunState

/-- What is told at the end of a run agrees with the state in which it ended. -/
structure Report.Faithful (r : Report) : Prop where
  success_iff : r.verdict.success = true ↔ r.state.Satisfied ∨ r.state.StoppedAchieved
  awaiting_iff : r.verdict.phase = .awaitingUser ↔ r.state.Asked
  not_running : r.verdict.phase ≠ .running
  stopped_of_success : r.verdict.success = true → r.verdict.phase = .stopped

namespace Agent

variable {σ : Type} {a : Agent σ} {runId : String} {policy : FailurePolicy}
  {state final : RunState}

/-! ### One turn -/

/-- **A turn leaves its run open exactly when it gives no verdict.** -/
theorem Yields.verdict_eq_none_iff {action : Action} {o : TurnOutcome}
    (h : a.Yields state action o) :
    o.verdict = none ↔ action.isWork = true ∧ ¬ o.next.Satisfied := by
  cases h with
  | @called c n w r critique hr hc =>
    cases critique <;> simp [verdictOf, Action.isWork, RunState.Satisfied, next, RunState.advance]
  | asked => simp [Action.isWork]
  | stopped => simp [Action.isWork]
  | replanned => simp [Action.isWork, RunState.Satisfied, next, RunState.advance]

theorem CompletedTurn.verdict_eq_none_iff (t : a.CompletedTurn runId policy) :
    t.verdict = none ↔ t.action.isWork = true ∧ ¬ t.next.Satisfied :=
  t.yields.verdict_eq_none_iff

theorem CompletedTurn.next_open (t : a.CompletedTurn runId policy) (hv : t.verdict = none) :
    t.next.Open := by
  obtain ⟨hw, hs⟩ := t.verdict_eq_none_iff.1 hv
  refine ⟨fun action h => ?_, hs⟩
  rw [t.next_lastAction] at h
  exact Option.some.inj h ▸ hw

/-- **The verdict of a turn agrees with the state that the turn left.** -/
theorem Yields.faithful {action : Action} {o : TurnOutcome} {v : Verdict}
    (h : a.Yields state action o) (hv : o.verdict = some v) :
    Report.Faithful ⟨runId, v, o.next⟩ := by
  cases h with
  | @called c n w r critique hr hc =>
    -- a call ends a run only by a critique that is satisfied
    obtain ⟨k, rfl, hk, rfl⟩ : ∃ k, critique = some k ∧ k.goalSatisfied = true ∧
        v = ⟨.stopped, true, "Goal achieved: " ++ k.assessment⟩ := by
      cases critique with
      | none => cases hv
      | some k =>
        cases hk : k.goalSatisfied with
        | false => simp [verdictOf, hk] at hv
        | true => exact ⟨k, rfl, hk, by simpa [verdictOf, hk] using hv.symm⟩
    exact {
      success_iff := ⟨fun _ => .inl ⟨k, rfl, hk⟩, fun _ => rfl⟩
      awaiting_iff := by simp [RunState.Asked, next, RunState.advance]
      not_running := by simp
      stopped_of_success := fun _ => rfl }
  | @asked q fields =>
    obtain rfl := Option.some.inj hv
    exact {
      success_iff := by
        simp [RunState.Satisfied, RunState.StoppedAchieved, next, RunState.advance]
      awaiting_iff := ⟨fun _ => ⟨q, fields, rfl⟩, fun _ => rfl⟩
      not_running := by simp
      stopped_of_success := by simp }
  | @stopped reason =>
    obtain rfl := Option.some.inj hv
    exact {
      success_iff := by
        simp [RunState.Satisfied, RunState.StoppedAchieved, next, RunState.advance,
          claimsAchievement_iff]
      awaiting_iff := by simp [RunState.Asked, next, RunState.advance]
      not_running := by simp
      stopped_of_success := fun _ => rfl }
  | replanned => cases hv

/-! ### Whole runs -/

/-- A run that is stopped in an open state has no success, and is told so. -/
theorem faithful_stopped (ho : state.Open) (reason : String) :
    Report.Faithful ⟨runId, stopped reason, state⟩ where
  success_iff := by simp [stopped, ho.unsatisfied, ho.not_stoppedAchieved]
  awaiting_iff := by simp [stopped, ho.not_asked]
  not_running := by simp [stopped]
  stopped_of_success := by simp [stopped]

theorem exists_reason_of_fault {f : TurnFault} {v : Verdict} (h : verdictOfFault f = some v) :
    ∃ reason, v = stopped reason := by
  cases f <;> simp only [verdictOfFault, Option.some.injEq, reduceCtorEq] at h <;>
    exact ⟨_, h.symm⟩

namespace Course

variable {left : Nat} {s s' : Session σ} {v : Option Verdict}
  {turns : List (a.CompletedTurn runId policy)}

/-- **A loop that begins in an open state ends with a verdict that agrees with its last state.** -/
theorem faithful (h : a.Course runId policy left state s turns v final s') (ho : state.Open)
    {verdict : Verdict} (hv : v = some verdict) : Report.Faithful ⟨runId, verdict, final⟩ := by
  induction h with
  | halted =>
    obtain rfl := Option.some.inj hv
    exact faithful_stopped ho _
  | failed =>
    obtain ⟨reason, rfl⟩ := exists_reason_of_fault hv
    exact faithful_stopped ho reason
  | @ended left s t v halt ht =>
    obtain rfl := Option.some.inj hv
    exact t.yields.faithful ht
  | @goesOn left s s' t turns v final halt ht rest ih => exact ih (t.next_open ht) hv

/-- **A turn that gives a verdict is the last thing that the loop does.** -/
theorem eq_of_verdict (h : a.Course runId policy left state s turns v final s')
    {t : a.CompletedTurn runId policy} (ht : t ∈ turns) (hv : t.verdict ≠ none) :
    v = t.verdict ∧ final = t.next ∧ s' = t.after := by
  induction h with
  | halted | failed => cases ht
  | ended halt hv' =>
    obtain rfl := List.mem_singleton.1 ht
    exact ⟨hv'.symm, rfl, rfl⟩
  | goesOn halt hv' rest ih =>
    rcases List.mem_cons.1 ht with rfl | ht
    · exact absurd hv' hv
    · exact ih ht

/-- **Only the last turn gives a verdict.** -/
theorem verdict_of_mem_dropLast (h : a.Course runId policy left state s turns v final s') :
    ∀ t ∈ turns.dropLast, t.verdict = none := by
  induction h with
  | halted | failed | ended => simp
  | @goesOn left s s' t₀ turns v final halt hv rest ih =>
    intro t ht
    cases turns with
    | nil => cases ht
    | cons u turns =>
      rcases List.mem_cons.1 ht with rfl | ht
      · exact hv
      · exact ih t ht

end Course

/-- **The ends of a run that began in a new state.** What is told agrees with the last state; every
turn but the last was a call or a new plan without a satisfied critique; and after a turn of
another kind no further turn was started. -/
theorem run_faithful {goal : Goal} {budget : Budget} {s : Session σ}
    (hfresh : a.firstState runId goal budget s = .initial goal budget) :
    (∀ report s', (a.run runId goal budget policy).run s = (some report, s') → report.Faithful) ∧
    (∀ t ∈ (a.turns runId goal budget policy s).dropLast,
      t.action.isWork = true ∧ ¬ t.next.Satisfied) ∧
    ∀ t ∈ a.turns runId goal budget policy s, ¬ (t.action.isWork = true ∧ ¬ t.next.Satisfied) →
      ((a.run runId goal budget policy).run s).2.events = t.after.events := by
  obtain ⟨first, s₁, v, final, s₂, hb, hc, hrun⟩ := a.run_course runId policy goal budget s
  obtain rfl : first = .initial goal budget := by rw [← hfresh, firstState, hb]
  rw [hrun]
  refine ⟨fun report s' hreport => ?_, fun t ht => ?_, fun t ht hset => ?_⟩
  · obtain ⟨verdict, rfl, rfl⟩ := Option.map_eq_some_iff.1 (Prod.mk.inj hreport).1
    exact hc.faithful (RunState.open_initial goal budget) rfl
  · exact t.verdict_eq_none_iff.1 (hc.verdict_of_mem_dropLast t ht)
  · obtain ⟨-, -, rfl⟩ := hc.eq_of_verdict ht fun hv => hset (t.verdict_eq_none_iff.1 hv)
    rw [closed_events]

/-- Calls a tool once and then stops. -/
def searcher : Agent StateStore.Table :=
  .rehearsed [.rehearsed "search" [.output (.string "found")]]
    [.calls "search", .stops "Goal ACHIEVED"]

theorem run_faithful_searcher :
    searcher.firstState "run" .rehearsed .standard .rehearsed = .initial .rehearsed .standard ∧
    (searcher.turns "run" .rehearsed .standard .standard .rehearsed).length = 2 ∧
    ∃ report s', (searcher.run "run" .rehearsed .standard .standard).run .rehearsed =
      (some report, s') ∧ report.verdict.success = true ∧ report.Faithful := by
  refine ⟨rfl, by decide +kernel, ?_⟩
  have hs : (((searcher.run "run" .rehearsed .standard .standard).run .rehearsed).1.map
      (·.verdict.success)) = some true := by decide +kernel
  rcases h : (searcher.run "run" .rehearsed .standard .standard).run .rehearsed with ⟨told, s'⟩
  rw [h] at hs
  obtain ⟨report, rfl, hv⟩ := Option.map_eq_some_iff.1 hs
  exact ⟨report, s', rfl, hv, (run_faithful rfl).1 report s' h⟩

end Agent

end Conductor

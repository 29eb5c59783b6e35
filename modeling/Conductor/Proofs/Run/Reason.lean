import Conductor.Proofs.Run.Cancellation
import Conductor.Proofs.Run.Unrecoverable

/-!
# The reasons of runs that end

A run tells why it has ended. Most of its reasons are written by the loop, the policy or the critic,
and they say something. The reason of a stop that the model has decided on is handed on as it is,
and nobody looks whether it says anything.

* `TurnFault.isBlankText_message`, `FailurePolicy.isBlankText_unrecoverable` : reasons that are
  written in a run are not blank;
* `CompletedTurn.stop_of_blank`, `Course.stop_of_blank` : **a blank reason is that of a stop that the
  model has decided on;**
* `Agent.blank_reason_iff` : **the reason of a run is blank exactly if its model has stopped it for a
  blank reason**, which it can (`Agent.blank_reason_told`).
-/

namespace Conductor

/-! ### Texts that are blank -/

namespace Text

theorem isBlankText_append (s t : String) :
    isBlankText (s ++ t) = (isBlankText s && isBlankText t) := by
  rw [isBlankText, String.toList_append, List.all_append]
  rfl

/-- A blank text does not mention anything. -/
theorem not_mentionsAchieved {s : String} (h : isBlankText s = true) : ¬ MentionsAchieved s := by
  have hblank := List.all_eq_true.1 h
  rw [mentionsAchieved_iff, smallForms_of_isBlank hblank]
  intro hoccurs
  have ha : isBlank 'a' = true := hblank 'a' (hoccurs.subset (by decide))
  revert ha
  decide

end Text

open Text

/-- A text does not become blank by what is put behind it. -/
theorem Text.isBlankText_append_eq_false {s : String} (h : isBlankText s = false) (t : String) :
    isBlankText (s ++ t) = false := by
  rw [isBlankText_append, h, Bool.false_and]

/-- What has gone wrong in a turn is told in words. -/
theorem TurnFault.isBlankText_message (f : TurnFault) : isBlankText f.message = false := by
  cases f with
  | decision f =>
    exact isBlankText_append_eq_false (s := "Decision parse error: ") (by decide) f.message
  | model e => exact isBlankText_append_eq_false (s := "LLM error: ") (by decide) e.message
  | panicked m => exact isBlankText_append_eq_false (s := "Turn panicked: ") (by decide) m
  | cancelled | stalled => decide

/-- What the policy says of a failure is told in words. -/
theorem FailurePolicy.isBlankText_unrecoverable (failed : Result) :
    isBlankText (unrecoverable failed) = false := by
  have hhead : isBlankText "Unrecoverable failure of tool '" = false := by decide
  -- the equation of the definition is not used: it would be checked by evaluating the texts
  delta unrecoverable
  simp only [isBlankText_append, hhead, Bool.false_and]

namespace Agent

variable {σ : Type} {a : Agent σ} {runId : String} {policy : FailurePolicy}

/-! ### One turn -/

/-- **A stop was decided on as it is, or is that of an unrecoverable failure.** -/
theorem decided_of_stop {state : RunState} {d : Decision} {reason : String}
    (h : a.resolve policy state d = .stop reason) :
    d = .stop reason ∨ ∃ failed, reason = FailurePolicy.unrecoverable failed := by
  cases d with
  | callTool c =>
    obtain ⟨failed, -, hreason⟩ := resolve_stop_cases h
    exact .inr ⟨failed, hreason⟩
  | askUser q fields => cases h
  | stop r =>
    cases h
    exact .inl rfl
  | replan gs => cases h

/-- **A turn that ends its run for a blank reason has handed on the stop of the model**, and the run
has no success. -/
theorem CompletedTurn.stop_of_blank (t : a.CompletedTurn runId policy) {v : Verdict}
    (hv : t.verdict = some v) (hblank : isBlankText v.reason = true) :
    t.decision = .stop v.reason ∧ v.success = false := by
  rcases t.yields.verdict_eq_some_iff.1 hv with
    ⟨r, hlast, rfl⟩ | ⟨q, fields, -, rfl⟩ | ⟨k, -, -, rfl⟩
  · have hlast' : t.next.lastAction = some (.stop r) := hlast
    have haction : t.action = .stop r := Option.some.inj (t.next_lastAction.symm.trans hlast')
    constructor
    · rcases decided_of_stop haction with hd | ⟨failed, rfl⟩
      · exact hd
      · rw [FailurePolicy.isBlankText_unrecoverable] at hblank
        cases hblank
    · rw [Bool.eq_false_iff]
      intro hclaims
      exact not_mentionsAchieved hblank (claimsAchievement_iff.1 hclaims)
  · have hasked : isBlankText stopUserInput = false := by decide
    exact absurd (hasked.symm.trans hblank) Bool.false_ne_true
  · have hachieved := isBlankText_append_eq_false (s := "Goal achieved: ") (by decide) k.assessment
    exact absurd (hachieved.symm.trans hblank) Bool.false_ne_true

/-- A turn that was decided to be a stop tells the reason as it is. -/
theorem CompletedTurn.verdict_of_stop (t : a.CompletedTurn runId policy) {r : String}
    (hd : t.decision = .stop r) : t.verdict = some ⟨.stopped, claimsAchievement r, r⟩ := by
  have hy := t.yields
  have haction : t.action = .stop r := by
    rw [CompletedTurn.action, hd]
    rfl
  rw [haction] at hy
  exact hy.verdict_of_stop

/-! ### Whole runs -/

theorem isBlankText_of_fault {f : TurnFault} {v : Verdict} (h : verdictOfFault f = some v) :
    isBlankText v.reason = false := by
  cases f with
  | cancelled =>
    cases h
    decide
  | stalled => cases h
  | decision | model | panicked =>
    cases h
    exact TurnFault.isBlankText_message _

/-- **A loop that ends for a blank reason has completed a turn in which the model has decided to stop
for it**, and gives no success. -/
theorem Course.stop_of_blank {left : Nat} {state final : RunState} {s s' : Session σ}
    {v : Option Verdict} {turns : List (a.CompletedTurn runId policy)}
    (h : a.Course runId policy left state s turns v final s') {verdict : Verdict}
    (hv : v = some verdict) (hblank : isBlankText verdict.reason = true) :
    (∃ t ∈ turns, t.decision = .stop verdict.reason) ∧ verdict.success = false := by
  induction h with
  | @halted left state s s' r halt =>
    obtain rfl := Option.some.inj hv
    have hr := (halt?_does halt).2.2 r rfl
    have hno : isBlankText (stopped r).reason = false := by
      rw [stopped, hr]
      split <;> decide
    rw [hno] at hblank
    cases hblank
  | failed halt step =>
    rw [isBlankText_of_fault hv] at hblank
    cases hblank
  | @ended left s t v halt ht =>
    obtain rfl := Option.some.inj hv
    obtain ⟨hd, hfailed⟩ := t.stop_of_blank ht hblank
    exact ⟨⟨t, List.mem_singleton_self t, hd⟩, hfailed⟩
  | goesOn halt ht rest ih =>
    obtain ⟨⟨t, hmem, hd⟩, hfailed⟩ := ih hv
    exact ⟨⟨t, List.mem_cons_of_mem _ hmem, hd⟩, hfailed⟩

/-- **When the reason of a run says nothing.** The reason of a run is blank exactly if its model has
decided on a stop with a blank reason. Such a run has no success, so that nothing tells why. -/
theorem blank_reason_iff {goal : Goal} {budget : Budget} {s s' : Session σ} {report : Report}
    (h : (a.run runId goal budget policy).run s = (some report, s')) :
    (isBlankText report.verdict.reason = true ↔
      ∃ t ∈ a.turns runId goal budget policy s, ∃ r,
        t.decision = .stop r ∧ isBlankText r = true) ∧
    (isBlankText report.verdict.reason = true → report.verdict.success = false) := by
  obtain ⟨first, s₁, v, final, s₂, -, hcourse, hrun⟩ := a.run_course runId policy goal budget s
  obtain ⟨verdict, hv, rfl⟩ := Option.map_eq_some_iff.1 (Prod.mk.inj (hrun.symm.trans h)).1
  refine ⟨⟨?_, ?_⟩, ?_⟩
  · intro hblank
    obtain ⟨⟨t, ht, hd⟩, -⟩ := hcourse.stop_of_blank hv hblank
    exact ⟨t, ht, _, hd, hblank⟩
  · rintro ⟨t, ht, r, hd, hblank⟩
    have hstop := t.verdict_of_stop hd
    obtain ⟨hsame, -⟩ := hcourse.eq_of_verdict ht (by simp [hstop])
    rw [hv, hstop] at hsame
    rw [Option.some.inj hsame]
    exact hblank
  · intro hblank
    exact (hcourse.stop_of_blank hv hblank).2

/-- Stops at once, and says nothing. -/
def mute : Agent StateStore.Table := .rehearsed [] [.stops " "]

theorem mute_run : ((mute.run "run" .rehearsed .standard .standard).run .rehearsed).1.map
    (fun report => (report.verdict.success, report.verdict.reason)) = some (false, " ") := by
  decide +kernel

/-- The reason is that of a stop. -/
theorem blank_reason_iff_mute : ∃ report s',
    (mute.run "run" .rehearsed .standard .standard).run .rehearsed = (some report, s') ∧
    ∃ t ∈ mute.turns "run" .rehearsed .standard .standard .rehearsed, ∃ r,
      t.decision = .stop r ∧ isBlankText r = true := by
  obtain ⟨report, s', hrun, heq⟩ := Outside.exists_of_run_map mute_run
  have hblank : isBlankText report.verdict.reason = true := by
    rw [(Prod.mk.inj heq).2]
    decide
  exact ⟨report, s', hrun, (blank_reason_iff hrun).1.1 hblank⟩

/-- A run without success can have a reason that says nothing. -/
theorem blank_reason_told : ¬ ∀ (a : Agent StateStore.Table) (runId : String) (goal : Goal)
    (budget : Budget) (policy : FailurePolicy) (s s' : Session StateStore.Table) (report : Report),
    (a.run runId goal budget policy).run s = (some report, s') →
      report.verdict.success = false → isBlankText report.verdict.reason = false := by
  intro hall
  obtain ⟨report, s', hrun, heq⟩ := Outside.exists_of_run_map mute_run
  obtain ⟨hfailed, hreason⟩ := Prod.mk.inj heq
  have hsays := hall mute "run" .rehearsed .standard .standard .rehearsed s' report hrun hfailed
  rw [hreason] at hsays
  revert hsays
  decide

end Agent

end Conductor

import Conductor.Proofs.Policy
import Conductor.Proofs.Run.Ending
import Conductor.Proofs.Text.Lowering

/-!
# Unrecoverable failures

When a failed call is not tried again and nothing can stand in for it, the policy stops the run and
writes a reason. The loop reads success off the reason of a stop, whoever wrote it, by looking for
one word; and the reason of the policy quotes the name of the tool and what the tool has said.

* `FailurePolicy.claimsAchievement_unrecoverable` : where the word can stand in such a reason;
* `Agent.resolve_stop_cases` : a stop that was decided as a call is the stop of a failure;
* `Agent.unrecoverable_success_iff` : **a run that ends with an unrecoverable failure is told as a
  success exactly when the tool's name or its detail contains the word**, which it can
  (`Agent.unrecoverable_told_as_success`).
-/

namespace Conductor

theorem mentionsAchieved_iff {s : String} :
    MentionsAchieved s ↔ "achieved".toList <:+: Text.smallForms s.toList :=
  Text.infix_lowerChars (by decide) (by decide)

/-- A separator that is its own small form, and that the word does not contain, divides a text. -/
theorem infix_smallForms_separated {u v : List Char} {c : Char}
    (hc : Text.smallForm c = [c]) (hp : c ∉ "achieved".toList) :
    "achieved".toList <:+: Text.smallForms (u ++ c :: v) ↔
      "achieved".toList <:+: Text.smallForms u ∨ "achieved".toList <:+: Text.smallForms v := by
  rw [Text.smallForms_append, Text.smallForms_cons, hc]
  exact Text.infix_append_cons hp

namespace FailurePolicy

/-- The reason of an unrecoverable failure, cut at the places where the word cannot stand. -/
theorem unrecoverable_toList (failed : Result) : (unrecoverable failed).toList =
    "Unrecoverable failure of tool ".toList ++ '\'' :: (failed.call.name.toList ++
      '\'' :: (" (".toList ++ failed.code.name.toList ++
        ')' :: (" after ".toList ++ (toString failed.attempt).toList ++ " attempt(s):".toList ++
          ' ' :: (failed.detail.getD "no detail").toList))) := by
  -- the equation of the definition is not used: it would be checked by evaluating the texts
  delta unrecoverable
  have h₁ : "Unrecoverable failure of tool '".toList =
      "Unrecoverable failure of tool ".toList ++ ['\''] := by decide
  have h₂ : "' (".toList = '\'' :: " (".toList := by decide
  have h₃ : ") after ".toList = ')' :: " after ".toList := by decide
  have h₄ : " attempt(s): ".toList = " attempt(s):".toList ++ [' '] := by decide
  simp only [String.toList_append, h₁, h₂, h₃, h₄, List.append_assoc,
    List.cons_append, List.nil_append]

/-- **The reason of an unrecoverable failure claims that the goal is achieved exactly when the name
of the tool or the detail of the failure does.** -/
theorem claimsAchievement_unrecoverable {failed : Result} :
    claimsAchievement (unrecoverable failed) = true ↔
      MentionsAchieved failed.call.name ∨ MentionsAchieved (failed.detail.getD "no detail") := by
  have hhead :
      ¬ "achieved".toList <:+: Text.smallForms "Unrecoverable failure of tool ".toList := by
    decide
  have hcode : ¬ "achieved".toList <:+:
      Text.smallForms (" (".toList ++ failed.code.name.toList) := by
    cases failed.code <;> decide
  have hcount : ¬ "achieved".toList <:+: Text.smallForms
      (" after ".toList ++ (toString failed.attempt).toList ++ " attempt(s):".toList) := by
    rw [Text.smallForms_append, Text.smallForms_append,
      Text.smallForms_of_isDigit fun c hc => Text.isDigit_of_mem_toString hc]
    intro h
    -- there is no "v" in these parts
    have hv := h.subset (show 'v' ∈ "achieved".toList by decide)
    rw [List.mem_append, List.mem_append] at hv
    rcases hv with (hv | hv) | hv
    · revert hv; decide
    · exact absurd (Text.isDigit_of_mem_toString hv) (by decide)
    · revert hv; decide
  rw [claimsAchievement_iff, mentionsAchieved_iff, mentionsAchieved_iff,
    mentionsAchieved_iff, unrecoverable_toList]
  rw [infix_smallForms_separated (c := '\'') (by decide) (by decide),
    infix_smallForms_separated (c := '\'') (by decide) (by decide),
    infix_smallForms_separated (c := ')') (by decide) (by decide),
    infix_smallForms_separated (c := ' ') (by decide) (by decide)]
  simp only [hhead, hcode, hcount, false_or]

end FailurePolicy

namespace Agent

open FailurePolicy

variable {σ : Type} {a : Agent σ} {runId : String} {policy : FailurePolicy}

/-- **A stop that was decided as a call is the stop of an unrecoverable failure of that call.** -/
theorem resolve_stop_cases {state : RunState} {c : Call} {reason : String}
    (h : a.resolve policy state (.callTool c) = .stop reason) :
    ∃ failed, Failed c failed state.lastObservation ∧ reason = unrecoverable failed := by
  unfold resolve at h
  rcases resolve_call_cases policy a.executor.registry c state with
    ⟨-, hf⟩ | ⟨failed, hfailed, hf⟩
  · rw [hf] at h
    cases h
  · rw [hf] at h
    rcases afterFailure_cases policy a.executor.registry c failed with
      ⟨-, wait, ha⟩ | ⟨-, hg⟩
    · rw [ha] at h
      cases h
    · rw [h] at hg
      cases hg
      exact ⟨failed, hfailed, rfl⟩

/-- **A run that ends with an unrecoverable failure is told as a success exactly when the name of
the tool or the detail of its failure contains the word "achieved".** -/
theorem unrecoverable_success_iff {goal : Goal} {budget : Budget} {s s' : Session σ}
    {report : Report} (h : (a.run runId goal budget policy).run s = (some report, s'))
    {t : a.CompletedTurn runId policy} (ht : t ∈ a.turns runId goal budget policy s) {c : Call}
    (hd : t.decision = .callTool c) {reason : String} (hstop : t.action = .stop reason) :
    ∃ failed, Failed c failed t.before.lastObservation ∧
      report.verdict.reason = unrecoverable failed ∧
      (report.verdict.success = true ↔
        MentionsAchieved c.name ∨ MentionsAchieved (failed.detail.getD "no detail")) := by
  have hstop' : a.resolve policy t.before (.callTool c) = .stop reason := by
    rw [← hd]
    exact hstop
  obtain ⟨failed, hfailed, rfl⟩ := resolve_stop_cases hstop'
  have hy := t.yields
  rw [hstop] at hy
  have hv : t.verdict = _ := hy.verdict_of_stop
  obtain ⟨first, s₁, v, final, s₂, -, hc, hrun⟩ := a.run_course runId policy goal budget s
  obtain ⟨rfl, -, -⟩ := hc.eq_of_verdict ht (by simp [hv])
  have hverdict : report.verdict = ⟨.stopped, claimsAchievement (unrecoverable failed),
      unrecoverable failed⟩ := by
    rw [hrun, hv] at h
    rw [← Option.some.inj (Prod.mk.inj h).1]
  have hname : failed.call.name = c.name := by
    obtain ⟨o, -, -, -, hsame⟩ := hfailed
    exact Call.name_eq_of_same hsame
  refine ⟨failed, hfailed, ?_, ?_⟩
  · rw [hverdict]
  · rw [hverdict, claimsAchievement_unrecoverable, hname]

/-- Has a tool that fails and says that a limit is achieved, and calls it twice. -/
def limited : Agent StateStore.Table :=
  .rehearsed [.rehearsed "quota" [.failure (.failed "limit already achieved")]]
    [.calls "quota", .calls "quota"]

/-- The turn was decided as a call and has become a stop. -/
def CompletedTurn.isStoppedCall (t : a.CompletedTurn runId policy) : Bool :=
  match t.decision, t.action with
  | .callTool _, .stop _ => true
  | _, _ => false

theorem CompletedTurn.of_isStoppedCall {t : a.CompletedTurn runId policy}
    (h : t.isStoppedCall = true) :
    ∃ c reason, t.decision = .callTool c ∧ t.action = .stop reason := by
  unfold isStoppedCall at h
  split at h
  · rename_i c reason hd ha
    exact ⟨c, reason, hd, ha⟩
  · cases h

theorem limited_run : ∃ t ∈ limited.turns "run" .rehearsed .standard .standard .rehearsed,
    ∃ c reason report s', t.decision = .callTool c ∧ t.action = .stop reason ∧
      (limited.run "run" .rehearsed .standard .standard).run .rehearsed = (some report, s') ∧
      report.verdict.success = true := by
  have ht : (limited.turns "run" .rehearsed .standard .standard .rehearsed).any
      CompletedTurn.isStoppedCall = true := by decide +kernel
  have hs : (((limited.run "run" .rehearsed .standard .standard).run .rehearsed).1.map
      (·.verdict.success)) = some true := by decide +kernel
  obtain ⟨t, hmem, ht⟩ := List.any_eq_true.1 ht
  obtain ⟨c, reason, hd, ha⟩ := CompletedTurn.of_isStoppedCall ht
  rcases h : (limited.run "run" .rehearsed .standard .standard).run .rehearsed with ⟨told, s'⟩
  rw [h] at hs
  obtain ⟨report, rfl, hv⟩ := Option.map_eq_some_iff.1 hs
  exact ⟨t, hmem, c, reason, report, s', hd, ha, rfl, hv⟩

theorem unrecoverable_success_iff_limited : ∃ (report : Report) (s' : Session StateStore.Table)
    (c : Call) (failed : Result),
    (limited.run "run" .rehearsed .standard .standard).run .rehearsed = (some report, s') ∧
      report.verdict.reason = unrecoverable failed ∧
      (report.verdict.success = true ↔
        MentionsAchieved c.name ∨ MentionsAchieved (failed.detail.getD "no detail")) := by
  obtain ⟨t, ht, c, reason, report, s', hd, ha, hrun, -⟩ := limited_run
  obtain ⟨failed, -, hreason, hiff⟩ := unrecoverable_success_iff hrun ht hd ha
  exact ⟨report, s', c, failed, hrun, hreason, hiff⟩

/-- An unrecoverable failure can be told as a success: the tool of `limited` has failed, and what it
has said is taken for the goal. -/
theorem unrecoverable_told_as_success : ¬ ∀ (a : Agent StateStore.Table) (runId : String)
    (goal : Goal) (budget : Budget) (policy : FailurePolicy)
    (s s' : Session StateStore.Table) (report : Report),
    (a.run runId goal budget policy).run s = (some report, s') →
    ∀ t ∈ a.turns runId goal budget policy s, ∀ c reason,
      t.decision = .callTool c → t.action = .stop reason → report.verdict.success = false := by
  intro h
  obtain ⟨t, ht, c, reason, report, s', hd, ha, hrun, hv⟩ := limited_run
  have hno := h limited "run" .rehearsed .standard .standard .rehearsed s' report hrun t ht c
    reason hd ha
  rw [hv] at hno
  cases hno

end Agent

end Conductor

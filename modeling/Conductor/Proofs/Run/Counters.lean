import Conductor.Proofs.Digest
import Conductor.Proofs.Run.Boundary
import Mathlib.Algebra.Group.Nat.Defs

/-!
# The numbers of a run stay within 32 bits

A turn counts three things up: the turns, the attempts at a call that has failed, and how often an
entry of the digest was written. None of them is ever ahead of the turns, and the turns stay within
the budget.

* `RunState.Counted` : no number of the state is ahead of the turns;
* `CompletedTurn.counted` : **a completed turn keeps it;**
* `Agent.run_counted` : **so it is between all turns of a run that began afresh, and no number that
  a turn counts up was the largest of 32 bits.**
-/

namespace Conductor

/-- No number of the state is ahead of the turns. -/
structure RunState.Counted (s : RunState) : Prop where
  attempt : ∀ o, s.lastObservation = some o → o.result.attempt ≤ s.turnIndex
  fits : s.digest.Fits s.turnIndex
  dated : s.digest.Dated

theorem RunState.counted_initial (goal : Goal) (budget : Budget) :
    (initial goal budget).Counted where
  attempt := nofun
  fits := Digest.fits_empty
  dated := Digest.dated_empty

namespace RunState.Counted

variable {s : RunState} (h : s.Counted)

include h

/-- So it is after a turn, if its attempt is not ahead of it. -/
theorem advance (hrange : s.turnIndex + 1 < 2 ^ 32) (limits : DigestLimits) (action : Action)
    {o : Option Observation} (c : Option Critique)
    (ho : ∀ x, o = some x → x.result.attempt ≤ s.turnIndex + 1) :
    (s.advance limits action o c).Counted where
  attempt := ho
  fits := RunState.fits_advance h.fits action o c
  dated := RunState.dated_advance h.dated h.fits hrange action o c

/-- In such a state, what is written again was not written more often than there were turns. -/
theorem updates_found (limits : DigestLimits) (action : Action) (o : Observation) {turn : Nat}
    {e : Digest.Entry} (he : e ∈ Digest.found turn (namedFacts o) (s.logged limits action).entries) :
    e.updates ≤ s.turnIndex := by
  rw [(s.logged_spec limits action).1] at he
  obtain ⟨k, hk⟩ := mem_of_mem_found he
  exact h.fits.updates _ hk

end RunState.Counted

namespace Agent

variable {σ : Type} {a : Agent σ} {runId : String} {policy : FailurePolicy}

namespace CompletedTurn

variable (t : a.CompletedTurn runId policy)

/-- An attempt at a call that has failed is one more than the attempt that has failed. -/
theorem attempt_le (h : t.before.Counted) {c : Call} {n : Nat} {w : Duration}
    (haction : t.action = .callTool c n w) : n ≤ t.before.turnIndex + 1 := by
  rcases FailurePolicy.resolve_eq_callTool haction with
    ⟨rfl, -⟩ | ⟨failed, ⟨o, ho, rfl, -, -⟩, rfl, -, -⟩
  · exact Nat.le_add_left 1 _
  · exact Nat.succ_le_succ (h.attempt o ho)

/-- After a completed turn the digest fits one more turn. -/
theorem fits (h : t.before.digest.Fits t.before.turnIndex) :
    t.next.digest.Fits t.next.turnIndex := by
  obtain ⟨seen, critique, hnext⟩ := t.yields.advances
  change t.next = _ at hnext
  rw [hnext]
  exact RunState.fits_advance h _ _ _

/-- **After a completed turn no number of the state is ahead of the turns, if none was before** and
there was another number for the turn. -/
theorem counted (h : t.before.Counted) (hrange : t.before.turnIndex + 1 < 2 ^ 32) :
    t.next.Counted := by
  have hobserved {x : Observation} (hx : t.next.lastObservation = some x) :
      x.result.attempt ≤ t.before.turnIndex + 1 := by
    obtain ⟨c, n, w, haction, hfor⟩ := t.yields.observed hx
    rw [hfor.attempt]
    exact t.attempt_le h haction
  obtain ⟨seen, critique, hnext⟩ := t.yields.advances
  change t.next = _ at hnext
  rw [hnext] at hobserved ⊢
  exact h.advance hrange _ _ _ fun x hx => hobserved hx

end CompletedTurn

/-- **Between all turns of a run that began afresh no number is ahead of the turns, and the turns are
within the budget.** So no turn counts anything up beyond 32 bits, if the budget is of 32 bits: not
the turns, not the attempts at the call that was last observed, and not the entries that it writes
again, whatever it does and observes. -/
theorem run_counted {goal : Goal} {budget : Budget} {s : Session σ}
    (hfresh : a.firstState runId goal budget s = .initial goal budget)
    (hbudget : budget.maxTurns < 2 ^ 32) :
    (∀ done rest, a.turns runId goal budget policy s = done ++ rest →
      (stateAfter (.initial goal budget) done).Counted ∧
        (stateAfter (.initial goal budget) done).turnIndex ≤ budget.maxTurns) ∧
    (∀ b ∈ a.begun runId goal budget policy s, b.1.Counted ∧ b.1.turnIndex + 1 < 2 ^ 32 ∧
      (∀ o, b.1.lastObservation = some o → o.result.attempt + 1 < 2 ^ 32) ∧
      ∀ action o, ∀ e ∈ Digest.found (b.1.turnIndex + 1) (RunState.namedFacts o)
        (b.1.logged a.digestLimits action).entries, e.updates + 1 < 2 ^ 32) ∧
    ∀ report s', (a.run runId goal budget policy).run s = (some report, s') →
      report.state.Counted ∧ report.state.turnIndex ≤ budget.maxTurns := by
  obtain ⟨c⟩ := a.exists_chronicle runId policy goal budget s
  have hfirst : c.first = .initial goal budget := c.firstState_eq.symm.trans hfresh
  have hbetween : ∀ done rest, a.turns runId goal budget policy s = done ++ rest →
      (stateAfter (.initial goal budget) done).Counted ∧
        (stateAfter (.initial goal budget) done).turnIndex ≤ budget.maxTurns := by
    intro done rest hturns
    have hwithin := c.stateAfter_turnIndex_le (by rw [hfirst]; exact Nat.zero_le _) hturns
    have hcourse := c.course
    rw [hfirst] at hwithin hcourse
    have hcounted := hcourse.invariant (P := fun _ state => state.turnIndex < 2 ^ 32 → state.Counted)
      (fun _ => RunState.counted_initial goal budget) (fun _ t h hrange => ?_) hturns
    · exact ⟨hcounted (Nat.lt_of_le_of_lt hwithin hbudget), hwithin⟩
    · rw [t.next_turnIndex] at hrange
      exact t.counted (h (Nat.lt_of_succ_lt hrange)) hrange
  refine ⟨hbetween, fun b hb => ?_, fun report s' hrun => ?_⟩
  · -- a turn is begun only if the budget has another one left
    obtain ⟨k, hk⟩ := List.mem_iff_getElem?.1 hb
    have hleft := (c.begun_spec k b hk).2.1
    rw [hfirst] at hleft
    change b.1.turnIndex < budget.maxTurns at hleft
    have hstate : b.1.Counted := by
      rw [c.begun_eq hk, hfirst]
      exact (hbetween _ _ (List.take_append_drop k _).symm).1
    have hnext {n : Nat} (hn : n ≤ b.1.turnIndex) : n + 1 < 2 ^ 32 := by omega
    exact ⟨hstate, hnext (Nat.le_refl _), fun o ho => hnext (hstate.attempt o ho),
      fun action o e he => hnext (hstate.updates_found _ action o he)⟩
  · obtain ⟨v, -, rfl⟩ := Option.map_eq_some_iff.1 (Prod.mk.inj (c.runs.symm.trans hrun)).1
    rw [c.final_eq_stateAfter, hfirst]
    exact hbetween _ [] (List.append_nil _).symm

/-- Calls a tool that is busy at first, and then once more than it has to. -/
def persistent : Agent StateStore.Table :=
  .rehearsed [.rehearsed "fetch" [.failure (.retryable "busy" false none), .output (.string "page")]]
    [.calls "fetch", .calls "fetch", .calls "fetch"]

theorem persistent_run :
    (persistent.begun "run" .rehearsed .standard .standard .rehearsed).map
      (fun b => (b.1.turnIndex, b.1.lastObservation.map (·.result.attempt),
        b.1.digest.entries.entries.map fun p => p.2.updates)) =
      [(0, none, []), (1, some 1, [1, 1]), (2, some 2, [1, 1, 1]), (3, some 1, [1, 1, 2])] := by decide +kernel

/-- The second attempt is made in the second turn, and the third turn writes what the second one
has written. -/
theorem run_counted_persistent :
    (persistent.begun "run" .rehearsed .standard .standard .rehearsed).length = 4 ∧
    ∀ b ∈ persistent.begun "run" .rehearsed .standard .standard .rehearsed,
      b.1.Counted ∧ b.1.turnIndex + 1 < 2 ^ 32 := by
  refine ⟨by simpa using congrArg List.length persistent_run, fun b hb => ?_⟩
  obtain ⟨-, hbegun, -⟩ :=
    @run_counted _ persistent "run" .standard .rehearsed .standard .rehearsed rfl (by decide)
  obtain ⟨hcounted, hindex, -⟩ := hbegun b hb
  exact ⟨hcounted, hindex⟩

end Agent

end Conductor

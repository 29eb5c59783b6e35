import Conductor.Proofs.Policy
import Conductor.Proofs.Run.Course
import Conductor.Proofs.Run.Rehearsed
import Mathlib.Tactic.MkIffOfInductiveProp

/-!
# The ceiling of retries

The number of an attempt is nowhere counted: it stands in the result that was last observed, and
the policy adds one. Here it is followed through a whole run. Turns that make one and the same call
one after the other, and fail each time, number their attempts from one on; they are no more than
the ceiling of retries and one; and when they end because the ceiling is reached or because the
failure cannot pass, the call is given up.

* `CompletedTurn.FailsAt` : a turn makes a call for the `n`-th time, and the call fails;
* `CompletedTurn.failsAt_iff_failed` : **such a turn is known by the state that it leaves**;
* `CompletedTurn.attempt_succ`, `CompletedTurn.attempt_one` : the number of an attempt, from one
  turn to the next;
* `CompletedTurn.givesUp` : after the last attempt the call is given up;
* `Agent.retry_ceiling` : **the ceiling holds in every run.**
-/

namespace Conductor

namespace Agent

open FailurePolicy

variable {σ : Type} {a : Agent σ} {runId : String} {policy : FailurePolicy}

namespace CompletedTurn

/-- The result that was observed in the turn, if a call was made. -/
def result? (t : a.CompletedTurn runId policy) : Option Result :=
  t.next.lastObservation.map (·.result)

/-- The turn makes a call, or an equal one, for the `n`-th time, and the call fails. -/
@[mk_iff]
structure FailsAt (t : a.CompletedTurn runId policy) (c : Call) (n : Nat) (failed : Result) :
    Prop where
  makes : ∃ c' wait, t.action = .callTool c' n wait ∧ c'.same c = true
  result : t.result? = some failed
  not_ok : failed.ok = false

/-- The turn makes a call, or an equal one, and the call fails. -/
def Fails (t : a.CompletedTurn runId policy) (c : Call) : Prop := ∃ n failed, t.FailsAt c n failed

variable {t u : a.CompletedTurn runId policy} {c : Call} {n m : Nat} {failed failed' : Result}

/-- **A turn whose call has failed is known by the state that it leaves.** -/
theorem failsAt_iff_failed :
    t.FailsAt c n failed ↔ Failed c failed t.next.lastObservation ∧ failed.attempt = n := by
  have hy := t.yields
  rw [failsAt_iff]
  unfold result? next
  generalize t.action = action at hy
  generalize t.outcome = o at hy
  cases hy with
  | @called c₀ n₀ w r critique hr hc =>
    constructor
    · rintro ⟨⟨c', wait, hact, hs⟩, hres, hok⟩
      cases hact
      obtain rfl := Option.some.inj hres
      exact ⟨⟨_, rfl, rfl, hok, hr.call ▸ hs⟩, hr.attempt⟩
    · rintro ⟨⟨o, ho, rfl, hok, hs⟩, rfl⟩
      obtain rfl := Option.some.inj ho
      refine ⟨⟨c₀, w, ?_, hr.call ▸ hs⟩, rfl, hok⟩
      exact congrArg (Action.callTool c₀ · w) hr.attempt.symm
  | asked | stopped | replanned =>
    constructor
    · rintro ⟨⟨c', wait, hact, -⟩, -⟩
      cases hact
    · rintro ⟨⟨o, ho, -⟩, -⟩
      cases ho

theorem fails_iff : t.Fails c ↔ ∃ failed, Failed c failed t.next.lastObservation :=
  ⟨fun ⟨_, failed, h⟩ => ⟨failed, (failsAt_iff_failed.1 h).1⟩,
    fun ⟨failed, h⟩ => ⟨failed.attempt, failed, failsAt_iff_failed.2 ⟨h, rfl⟩⟩⟩

instance : Decidable (t.Fails c) :=
  decidable_of_iff ((priorFailure? c t.next.lastObservation).isSome = true) <| by
    rw [fails_iff, Option.isSome_iff_exists]
    exact exists_congr fun _ => priorFailure?_eq_some

/-- **An attempt that does not follow on a failure of the call is the first one.** -/
theorem attempt_one (hno : ∀ failed, ¬ Failed c failed t.before.lastObservation)
    (ht : t.FailsAt c n failed) : n = 1 := by
  obtain ⟨c', wait, hact, hs⟩ := ht.makes
  rcases resolve_eq_callTool hact with ⟨rfl, -⟩ | ⟨failed', hf, -⟩
  · rfl
  · exact absurd (hf.of_same hs) (hno failed')

/-- **An attempt that follows on a failure of the call has the next number. Then the failure was
one that may pass, and the ceiling was not yet reached.** -/
theorem attempt_succ (ht : t.FailsAt c n failed) (hu : u.before = t.next)
    (hf : u.FailsAt c m failed') :
    m = n + 1 ∧ failed.code.isTransient = true ∧
      n ≤ policy.ceiling a.executor.registry c.name := by
  obtain ⟨hprior, rfl⟩ := failsAt_iff_failed.1 ht
  obtain ⟨c', wait, hact, hs⟩ := hf.makes
  rw [← hu] at hprior
  have hprior' : Failed c' failed u.before.lastObservation :=
    hprior.of_same (Call.same_comm ▸ hs)
  rcases resolve_eq_callTool hact with ⟨-, hno⟩ | ⟨failed₁, hf₁, hm, htr, hle⟩
  · exact absurd hprior' (hno failed)
  · obtain ⟨rfl, -⟩ := hprior'.unique hf₁
    exact ⟨hm, htr, Call.name_eq_of_same hs ▸ hle⟩

/-- **After an attempt whose failure cannot pass, or that has reached the ceiling, the call is
given up.** -/
theorem givesUp (ht : t.FailsAt c n failed)
    (hend : failed.code.isTransient = false ∨ n = 1 + policy.ceiling a.executor.registry c.name)
    {c' : Call} (hs : c'.same c = true) :
    GivesUp c' failed (a.resolve policy t.next (.callTool c')) := by
  obtain ⟨hprior, rfl⟩ := failsAt_iff_failed.1 ht
  have hprior' := hprior.of_same (Call.same_comm ▸ hs : c.same c' = true)
  unfold resolve
  rcases resolve_call_cases policy a.executor.registry c' t.next with
    ⟨hno, -⟩ | ⟨failed₁, hf₁, hres⟩
  · exact absurd hprior' (hno failed)
  · obtain ⟨rfl, -⟩ := hprior'.unique hf₁
    rw [hres]
    rcases afterFailure_cases policy a.executor.registry c' failed with
      ⟨⟨htr, hle⟩, -⟩ | ⟨-, hg⟩
    · rw [Call.name_eq_of_same hs] at hle
      rcases hend with hend | hend
      · rw [hend] at htr
        cases htr
      · omega
    · exact hg

end CompletedTurn

/-! ### Blocks of failed attempts -/

variable {block : List (a.CompletedTurn runId policy)} {c : Call}

/-- **The attempts of a block are numbered from one on.** -/
theorem block_failsAt (hchain : block.IsChain CompletedTurn.Precedes)
    (hfails : ∀ t ∈ block, t.Fails c)
    (hfirst : ∀ t ∈ block.head?, ∀ failed, ¬ Failed c failed t.before.lastObservation) :
    ∀ i (h : i < block.length), ∃ failed, block[i].FailsAt c (i + 1) failed := by
  intro i
  induction i with
  | zero =>
    intro h
    obtain ⟨n, failed, hf⟩ := hfails block[0] (List.getElem_mem h)
    obtain rfl := CompletedTurn.attempt_one
      (hfirst block[0] (by rw [List.head?_eq_getElem?, List.getElem?_eq_getElem h]; rfl)) hf
    exact ⟨failed, hf⟩
  | succ i ih =>
    intro h
    obtain ⟨failed, hf⟩ := ih (by omega)
    obtain ⟨n, failed', hf'⟩ := hfails block[i + 1] (List.getElem_mem h)
    obtain ⟨rfl, -⟩ := CompletedTurn.attempt_succ hf (hchain.getElem i h).2 hf'
    exact ⟨failed', hf'⟩

/-- **An attempt of a block that another one follows failed in a way that may pass, and below the
ceiling.** -/
theorem block_transient (hchain : block.IsChain CompletedTurn.Precedes)
    (hfails : ∀ t ∈ block, t.Fails c) {i n : Nat} (h : i + 1 < block.length) {failed : Result}
    (hf : block[i].FailsAt c n failed) :
    failed.code.isTransient = true ∧ n ≤ policy.ceiling a.executor.registry c.name := by
  obtain ⟨m, failed', hf'⟩ := hfails block[i + 1] (List.getElem_mem h)
  exact (CompletedTurn.attempt_succ hf (hchain.getElem i h).2 hf').2

/-- **The ceiling of retries holds in every run that begins in a new state.** In a block of turns
that make equal calls and fail, and that does not continue a longer one, the attempts are numbered
from one on; there is at most one more of them than the ceiling; all failures but the last may
pass; and if the last may not, or the ceiling is reached, then an equal call is given up in the
next turn. -/
theorem retry_ceiling {goal : Goal} {budget : Budget} {s : Session σ}
    (hfresh : a.firstState runId goal budget s = .initial goal budget)
    {before after : List (a.CompletedTurn runId policy)}
    (hturns : a.turns runId goal budget policy s = before ++ block ++ after)
    (hfails : ∀ t ∈ block, t.Fails c) (hmax : ∀ t ∈ before.getLast?, ¬ t.Fails c) :
    (∀ i (h : i < block.length), ∃ failed, block[i].FailsAt c (i + 1) failed ∧
      (i + 1 < block.length → failed.code.isTransient = true)) ∧
    block.length ≤ 1 + policy.ceiling a.executor.registry c.name ∧
    ∀ t ∈ block.getLast?, ∀ failed ∈ t.result?,
      failed.code.isTransient = false ∨
        block.length = 1 + policy.ceiling a.executor.registry c.name →
      (∀ c', c'.same c = true → GivesUp c' failed (a.resolve policy t.next (.callTool c'))) ∧
      ∀ u ∈ after.head?, ∀ c', u.decision = .callTool c' → c'.same c = true →
        GivesUp c' failed u.action := by
  obtain ⟨first, s₁, v, final, s₂, hb, hc, -⟩ := a.run_course runId policy goal budget s
  obtain rfl : first = .initial goal budget := by rw [← hfresh, firstState, hb]
  have hhead := hc.head_before
  have hlinked := hc.linked
  rw [hturns] at hhead hlinked
  obtain ⟨hfront, -, hnext⟩ := List.isChain_append.1 hlinked
  obtain ⟨-, hchain, hjoin⟩ := List.isChain_append.1 hfront
  -- the block begins the run, or stands behind a turn in which the call was not made or did well
  have hfirst : ∀ t ∈ block.head?, ∀ failed, ¬ Failed c failed t.before.lastObservation := by
    intro t ht failed hf
    cases hlast : before.getLast? with
    | none =>
      obtain rfl := List.getLast?_eq_none_iff.1 hlast
      rw [hhead t (by rw [List.nil_append, List.head?_append, Option.mem_def.1 ht]; rfl)] at hf
      obtain ⟨o, ho, -⟩ := hf
      cases ho
    | some p =>
      rw [(hjoin p hlast t ht).2] at hf
      exact hmax p hlast (CompletedTurn.fails_iff.2 ⟨failed, hf⟩)
  have hat := block_failsAt hchain hfails hfirst
  refine ⟨fun i h => ?_, ?_, fun t ht failed hres hend => ?_⟩
  · obtain ⟨failed, hf⟩ := hat i h
    exact ⟨failed, hf, fun h' => (block_transient hchain hfails h' hf).1⟩
  · -- the last attempt but one was below the ceiling
    rcases Nat.lt_or_ge 1 block.length with h | h
    · obtain ⟨failed, hf⟩ := hat (block.length - 2) (by omega)
      have hle := (block_transient hchain hfails (by omega) hf).2
      omega
    · omega
  · obtain ⟨h, rfl⟩ := List.getElem?_eq_some_iff.1 (List.getLast?_eq_getElem? ▸ ht)
    obtain ⟨failed', hf⟩ := hat (block.length - 1) h
    obtain rfl := Option.some.inj (hf.result.symm.trans hres)
    rw [show block.length - 1 + 1 = block.length by omega] at hf
    refine ⟨fun c' hs => CompletedTurn.givesUp hf hend hs, fun u hu c' hd hs => ?_⟩
    have hu := (hnext _ (by rw [List.getLast?_append, Option.mem_def.1 ht]; rfl) u hu).2
    rw [CompletedTurn.action, hu, hd]
    exact CompletedTurn.givesUp hf hend hs

/-- Calls a tool that is always busy, again and again. -/
def fetcher : Agent StateStore.Table :=
  .rehearsed [.rehearsed "fetch" [.failure (.retryable "busy" false none)]]
    [.calls "fetch", .calls "fetch", .calls "fetch", .calls "fetch"]

theorem fetcher_run :
    ((fetcher.turns "run" .rehearsed .standard .standard .rehearsed).take 3).length =
      1 + FailurePolicy.standard.ceiling fetcher.executor.registry "fetch" ∧
    ∀ t ∈ (fetcher.turns "run" .rehearsed .standard .standard .rehearsed).take 3,
      t.Fails ⟨"fetch", .emptyObject⟩ := by decide +kernel

theorem retry_ceiling_fetcher :
    ∃ block after, fetcher.turns "run" .rehearsed .standard .standard .rehearsed = block ++ after ∧
      block.length = 1 + FailurePolicy.standard.ceiling fetcher.executor.registry "fetch" ∧
      (∀ i (h : i < block.length), ∃ failed,
        block[i].FailsAt ⟨"fetch", .emptyObject⟩ (i + 1) failed) ∧
      ∀ t ∈ block.getLast?, ∀ failed ∈ t.result?, ∀ u ∈ after.head?, ∀ c',
        u.decision = .callTool c' → c'.same ⟨"fetch", .emptyObject⟩ = true →
        GivesUp c' failed u.action := by
  obtain ⟨hlength, hfails⟩ := fetcher_run
  generalize hturns : fetcher.turns "run" .rehearsed .standard .standard .rehearsed = turns
    at hlength hfails
  have hsplit : turns = [] ++ turns.take 3 ++ turns.drop 3 := by
    rw [List.nil_append, List.take_append_drop]
  obtain ⟨hat, -, hlast⟩ := retry_ceiling rfl (hturns.trans hsplit) hfails (by simp)
  refine ⟨turns.take 3, turns.drop 3, hsplit, hlength, fun i h => ?_, fun t ht failed hres => ?_⟩
  · obtain ⟨failed, hf, -⟩ := hat i h
    exact ⟨failed, hf⟩
  · exact (hlast t ht failed hres (.inr hlength)).2

end Agent

end Conductor

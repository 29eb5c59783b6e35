import Conductor.Proofs.Keyed
import Conductor.State
import Mathlib.Algebra.Group.Nat.Defs

/-!
# How large the numbers of a digest get

A turn writes every fact once and logs at most three lines, so the numbers of a digest are bounded
by the number of turns.

* `Digest.Fits`, `Digest.Dated` : what holds of the digest after so many turns;
* `Digest.mem_foldl_upsert`, `RunState.mem_digestAfter` : **what facts, and a whole turn, do to the
  entries;**
* `RunState.fits_advance`, `RunState.dated_advance` : **a turn keeps the bounds.**
-/

namespace Conductor

namespace Digest

variable {d : Digest} {limits : DigestLimits} {n : Nat}

/-- After `n` turns no entry is from a later turn or was written more often than `n` times, and at
most three lines have been logged in a turn. -/
structure Fits (n : Nat) (d : Digest) : Prop where
  turn : ∀ p ∈ d.entries.entries, p.2.turn ≤ n
  updates : ∀ p ∈ d.entries.entries, p.2.updates ≤ n
  lines : d.decisionLog.length + d.elided ≤ 3 * n

theorem fits_empty : empty.Fits 0 where
  turn _ h := absurd h List.not_mem_nil
  updates _ h := absurd h List.not_mem_nil
  lines := Nat.le_refl 0

/-- Every entry is from a turn, which are counted from one, and was written. -/
structure Dated (d : Digest) : Prop where
  turn : ∀ p ∈ d.entries.entries, 1 ≤ p.2.turn
  updates : ∀ p ∈ d.entries.entries, 1 ≤ p.2.updates

theorem dated_empty : empty.Dated where
  turn _ h := absurd h List.not_mem_nil
  updates _ h := absurd h List.not_mem_nil

/-- A line that is logged is kept or counted, and so is every line before it. -/
theorem lines_log (line : String) :
    (d.log limits line).decisionLog.length + (d.log limits line).elided =
      d.decisionLog.length + d.elided + 1 := by
  simp only [log, List.length_drop, List.length_append, List.length_singleton]
  omega

/-! ### Facts -/

section Facts

variable {facts : List (String × String)} {t : Keyed Entry} {turn : Nat}

/-- The entries that some facts find under their keys, each after those before it were written. -/
def found (turn : Nat) : List (String × String) → Keyed Entry → List Entry
  | [], _ => []
  | fact :: facts, t => (t.get? fact.1).toList ++ found turn facts (upsert turn t fact)

/-- **What facts have written is from their turn**, and was written for the first time or once more
than what they have found, as far as 32 bits go. -/
theorem mem_foldl_upsert {p : String × Entry} (h : p ∈ (facts.foldl (upsert turn) t).entries) :
    p ∈ t.entries ∨ (p.2.turn = turn ∧
      (p.2.updates = 1 ∨
        ∃ e ∈ found turn facts t, p.2.updates = (e.updates + 1) % 2 ^ 32)) := by
  induction facts generalizing t with
  | nil => exact .inl h
  | cons fact facts ih =>
    rcases ih h with h | ⟨hturn, hfirst | ⟨e, he, hmore⟩⟩
    · rcases mem_insertByKey h with rfl | h
      · -- the entry of this fact
        cases hbefore : t.get? fact.1 with
        | none => exact .inr ⟨rfl, .inl rfl⟩
        | some e =>
          exact .inr ⟨rfl, .inr ⟨e, List.mem_append_left _ (Option.mem_toList.2 hbefore), rfl⟩⟩
      · exact .inl h
    · exact .inr ⟨hturn, .inl hfirst⟩
    · exact .inr ⟨hturn, .inr ⟨e, List.mem_append_right _ he, hmore⟩⟩

/-- **Facts with different keys find the entries that were there before all of them.** -/
theorem get?_of_mem_found {e : Entry} (hkeys : (facts.map (·.1)).Nodup)
    (h : e ∈ found turn facts t) : ∃ k ∈ facts.map (·.1), t.get? k = some e := by
  induction facts generalizing t with
  | nil => cases h
  | cons fact facts ih =>
    obtain ⟨hfact, hrest⟩ := List.nodup_cons.1 hkeys
    rcases List.mem_append.1 h with h | h
    · exact ⟨fact.1, List.mem_cons_self .., Option.mem_toList.1 h⟩
    · obtain ⟨k, hk, hget⟩ := ih hrest h
      -- the fact that was written before has another key
      have hne : k ≠ fact.1 := ne_of_mem_of_not_mem hk hfact
      exact ⟨k, List.mem_cons_of_mem _ hk, (t.get?_insert_of_ne hne).symm.trans hget⟩

end Facts

/-- Compressing drops entries and logs one line at most. -/
theorem compress_spec (limits : DigestLimits) (d : Digest) :
    (∀ p ∈ (d.compress limits).entries.entries, p ∈ d.entries.entries) ∧
    (d.compress limits).decisionLog.length + (d.compress limits).elided ≤
      d.decisionLog.length + d.elided + 1 := by
  unfold compress
  split
  · exact ⟨fun _ => id, Nat.le_succ _⟩
  · exact ⟨fun p hp => (List.mem_filter.1 hp).1, Nat.le_of_eq (lines_log _)⟩

end Digest

namespace RunState

variable {limits : DigestLimits} {s : RunState}

variable (limits s) in
/-- An action logs one line, or two. -/
theorem logged_spec (action : Action) : (s.logged limits action).entries = s.digest.entries ∧
    (s.logged limits action).decisionLog.length + (s.logged limits action).elided ≤
      s.digest.decisionLog.length + s.digest.elided + 2 := by
  cases action with
  | replan gs =>
    refine ⟨rfl, Nat.le_of_eq ?_⟩
    rw [logged]
    exact (Digest.lines_log _).trans (congrArg (· + 1) (Digest.lines_log _))
  | callTool | askUser | stop =>
    refine ⟨rfl, Nat.le_succ_of_le (Nat.le_of_eq ?_)⟩
    exact Digest.lines_log _

/-- The facts of an observation are named differently. -/
theorem nodup_namedFacts (o : Observation) : ((namedFacts o).map (·.1)).Nodup := by
  rw [namedFacts, List.map_map, List.Nodup, List.pairwise_map]
  refine o.facts.ordered.imp fun {a b} hlt heq => ?_
  rw [Function.comp, Function.comp, String.append_right_inj] at heq
  exact String.ne_of_lt hlt heq

/-- What the facts of an observation find was known before. -/
theorem mem_of_mem_found {o : Observation} {turn : Nat} {t : Keyed Digest.Entry} {e : Digest.Entry}
    (h : e ∈ Digest.found turn (namedFacts o) t) : ∃ k, (k, e) ∈ t.entries := by
  obtain ⟨k, -, hk⟩ := Digest.get?_of_mem_found (nodup_namedFacts o) h
  exact ⟨k, Keyed.mem_of_get? hk⟩

/-- **After a turn an entry was known before, or is from this turn**, and was written for the first
time or once more than an entry that was known before, as far as 32 bits go. -/
theorem mem_digestAfter {action : Action} {o : Option Observation} {p : String × Digest.Entry}
    (h : p ∈ (s.digestAfter limits action o).entries.entries) :
    p ∈ s.digest.entries.entries ∨ (p.2.turn = s.turnIndex + 1 ∧
      (p.2.updates = 1 ∨
        ∃ q ∈ s.digest.entries.entries, p.2.updates = (q.2.updates + 1) % 2 ^ 32)) := by
  have hentries := (s.logged_spec limits action).1
  cases o with
  | none => exact .inl (hentries ▸ h)
  | some o =>
    have hfolded := (Digest.compress_spec limits _).1 p h
    rw [hentries] at hfolded
    rcases Digest.mem_foldl_upsert hfolded with h | ⟨hturn, hfirst | ⟨e, he, hmore⟩⟩
    · exact .inl h
    · exact .inr ⟨hturn, .inl hfirst⟩
    · obtain ⟨k, hk⟩ := mem_of_mem_found he
      exact .inr ⟨hturn, .inr ⟨_, hk, hmore⟩⟩

/-- A turn logs two lines at most, and compressing a third one. -/
theorem lines_digestAfter {action : Action} {o : Option Observation} :
    (s.digestAfter limits action o).decisionLog.length + (s.digestAfter limits action o).elided ≤
      s.digest.decisionLog.length + s.digest.elided + 3 := by
  have hlogged := (s.logged_spec limits action).2
  cases o with
  | none => exact Nat.le_succ_of_le hlogged
  | some o => exact Nat.le_trans (Digest.compress_spec limits _).2 (Nat.succ_le_succ hlogged)

/-- No count of updates starts again as long as the turns have 32 bits. -/
theorem dated_advance (h : s.digest.Dated) (hfits : s.digest.Fits s.turnIndex)
    (hrange : s.turnIndex + 1 < 2 ^ 32) (action : Action) (o : Option Observation)
    (c : Option Critique) : (s.advance limits action o c).digest.Dated where
  turn p hp := by
    rcases mem_digestAfter hp with hp | ⟨hturn, -⟩
    · exact h.turn p hp
    · omega
  updates p hp := by
    rcases mem_digestAfter hp with hp | ⟨-, hfirst | ⟨q, hq, hmore⟩⟩
    · exact h.updates p hp
    · omega
    · have hfew := hfits.updates q hq
      omega

/-- **After another turn the digest fits one more turn.** -/
theorem fits_advance (h : s.digest.Fits s.turnIndex) (action : Action) (o : Option Observation)
    (c : Option Critique) :
    (s.advance limits action o c).digest.Fits (s.advance limits action o c).turnIndex where
  turn p hp := by
    rcases mem_digestAfter hp with hp | ⟨hturn, -⟩
    · exact Nat.le_succ_of_le (h.turn p hp)
    · exact Nat.le_of_eq hturn
  updates p hp := by
    rcases mem_digestAfter hp with hp | ⟨-, hfirst | ⟨q, hq, hmore⟩⟩
    · exact Nat.le_succ_of_le (h.updates p hp)
    · exact hfirst ▸ Nat.le_add_left 1 _
    · exact hmore ▸ Nat.le_trans (Nat.mod_le ..) (Nat.succ_le_succ (h.updates q hq))
  lines := by
    have hbefore := h.lines
    have hafter : (s.advance limits action o c).digest.decisionLog.length +
        (s.advance limits action o c).digest.elided ≤
          s.digest.decisionLog.length + s.digest.elided + 3 := lines_digestAfter
    change _ ≤ 3 * (s.turnIndex + 1)
    omega

end RunState

end Conductor

import Conductor.Proofs.Digest.Eviction
import Conductor.Proofs.Run.Counters

/-!
# The newest facts of a run

A turn that calls a tool writes the facts of its observation under the number of the turn. In a run
that began afresh all entries from before are of earlier turns, so they are the first to give way,
and the facts of the turn stay if there is room for them alone.

* `Yields.folds` : what a call does to the entries;
* `Agent.newest_survive` : **after a turn that has called a tool, all facts that it has observed are
  known**, and what had to give way was older.
-/

namespace Conductor

namespace RunState

variable {o : Observation}

/-- A fact is known under the name of its tool. -/
theorem mem_namedFacts {k v : String} (h : o.facts.get? k = some v) :
    (o.tool ++ "." ++ k, v) ∈ namedFacts o :=
  List.mem_map.2 ⟨(k, v), Keyed.mem_of_get? h, rfl⟩

theorem length_namedFacts : (namedFacts o).length = o.facts.size := List.length_map _

end RunState

namespace Agent

variable {σ : Type} {a : Agent σ} {runId : String} {policy : FailurePolicy}

/-- **A call puts what it has observed into the digest**, to which only a line was added. -/
theorem Yields.folds {state : RunState} {c : Call} {n : Nat} {w : Duration} {out : TurnOutcome}
    (h : a.Yields state (.callTool c n w) out) :
    ∃ (o : Observation) (logged : Digest), out.next.lastObservation = some o ∧ o.IsOf c n ∧
      logged.entries = state.digest.entries ∧
      out.next.digest =
        logged.fold a.digestLimits (state.turnIndex + 1) (RunState.namedFacts o) := by
  have hlogged := (state.logged_spec a.digestLimits (.callTool c n w)).1
  cases h with
  | called hr => exact ⟨_, _, rfl, ⟨rfl, hr.call, hr.attempt⟩, hlogged, rfl⟩

/-- **The newest facts survive.** In a run that began afresh every turn that calls a tool observes
its result, and then all facts of the observation are known under the name of the tool, if the table
has room for them alone. They were written into the table of the turn before; of this table as many
entries are left as there is room for, and none that gave way was newer than one that is left. -/
theorem newest_survive {goal : Goal} {budget : Budget} {s : Session σ}
    (hfresh : a.firstState runId goal budget s = .initial goal budget) :
    ∀ t ∈ a.turns runId goal budget policy s, ∀ c n w, t.action = .callTool c n w →
      ∃ o, t.next.lastObservation = some o ∧ o.IsOf c n ∧
        (o.facts.size ≤ a.digestLimits.maxEntries → ∀ k v, o.facts.get? k = some v →
          t.next.digest.get? (c.name ++ "." ++ k) = some v) ∧
        let written := Digest.noted (t.before.turnIndex + 1) (RunState.namedFacts o)
          t.before.digest.entries
        t.next.digest.entries.size = min written.size a.digestLimits.maxEntries ∧
        (∀ q ∈ t.next.digest.entries.entries, q ∈ written.entries) ∧
        ∀ p ∈ written.entries, p ∉ t.next.digest.entries.entries →
          ∀ q ∈ t.next.digest.entries.entries, p.2.turn ≤ q.2.turn := by
  intro t ht c n w haction
  obtain ⟨chronicle⟩ := a.exists_chronicle runId policy goal budget s
  have hfirst : chronicle.first.digest.Fits chronicle.first.turnIndex := by
    rw [← chronicle.firstState_eq, hfresh]
    exact Digest.fits_empty
  have hfits : t.before.digest.Fits t.before.turnIndex :=
    chronicle.course.forall_before (P := fun state => state.digest.Fits state.turnIndex) hfirst
      (fun t => t.fits) t ht
  have hyields : a.Yields t.before (.callTool c n w) t.outcome := haction ▸ t.yields
  obtain ⟨o, logged, hseen, hof, hentries, hdigest⟩ := hyields.folds
  change t.next.digest = _ at hdigest
  have hspec := Digest.fold_spec a.digestLimits logged (t.before.turnIndex + 1)
    (RunState.namedFacts o)
  rw [← hdigest, hentries] at hspec
  obtain ⟨hsize, hleft, hgone⟩ := hspec
  refine ⟨o, hseen, hof, ?_, hsize, hleft, ?_⟩
  · intro hroom k v hfact
    -- all entries from before are of turns before this one
    have hold : ∀ p ∈ logged.entries.entries, p.2.turn < t.before.turnIndex + 1 := by
      intro p hp
      rw [hentries] at hp
      exact Nat.lt_succ_of_le (hfits.turn p hp)
    have hmem := RunState.mem_namedFacts hfact
    rw [hof.tool] at hmem
    rw [← RunState.length_namedFacts] at hroom
    rw [hdigest]
    exact Digest.get?_fold_of_newest hold (RunState.nodup_namedFacts o) hroom hmem
  · intro p hp hno q hq
    exact Digest.turn_le_of_rankLe (hgone p hp hno q hq)

/-- Finds one fact after the other, and has room for one. -/
def fleeting : Agent StateStore.Table :=
  { Agent.rehearsed
      [.rehearsed "search" [.output (.object [("a", .string "1")])],
        .rehearsed "fetch" [.output (.object [("b", .string "2")])]]
      [.calls "search", .calls "fetch"] with
    digestLimits := ⟨1, 1⟩ }

theorem fleeting_run :
    ((fleeting.turns "run" .rehearsed .standard .standard .rehearsed)[1]?.bind fun t =>
      t.next.lastObservation.map fun o => (o.tool, o.facts.entries)) =
        some ("fetch", [("b", "2")]) := by decide +kernel

/-- The second fact is known when the second turn is over. -/
theorem newest_survive_fleeting : ∃ t,
    (fleeting.turns "run" .rehearsed .standard .standard .rehearsed)[1]? = some t ∧
    t.next.digest.get? "fetch.b" = some "2" ∧ t.next.digest.entries.size ≤ 1 := by
  obtain ⟨t, hturn, hseen⟩ := Option.bind_eq_some_iff.1 fleeting_run
  obtain ⟨o, hobserved, hfacts⟩ := Option.map_eq_some_iff.1 hseen
  obtain ⟨htool, hentries⟩ := Prod.mk.inj hfacts
  obtain ⟨c, n, w, haction, -⟩ := t.yields.observed hobserved
  obtain ⟨o', hobserved', hof, hknown, hsize, -⟩ := newest_survive (a := fleeting) rfl t
    (List.mem_of_getElem? hturn) c n w haction
  obtain rfl := Option.some.inj (hobserved.symm.trans hobserved')
  have hroom : o.facts.size ≤ 1 := by
    rw [Keyed.size, hentries]
    exact Nat.le_refl 1
  have hfact : o.facts.get? "b" = some "2" := by
    refine Keyed.get?_of_mem ?_
    rw [hentries]
    exact List.mem_singleton_self _
  have hb := hknown hroom "b" "2" hfact
  rw [← hof.tool, htool] at hb
  exact ⟨t, hturn, hb, hsize ▸ Nat.min_le_right ..⟩

end Agent

end Conductor

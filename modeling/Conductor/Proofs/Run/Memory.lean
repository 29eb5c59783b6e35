import Conductor.Proofs.Digest.Log
import Conductor.Proofs.Run.Boundary
import Conductor.Proofs.Run.Finished

/-!
# The memory of a run

Every turn writes the digest in a few steps: it logs its action, and the new plan if there is one,
and puts in the facts that it has observed. What is known of the steps of a digest is therefore
known of the digests of a run, as long as the run began with a digest that was made by such steps
within the same limits. A stored state may hold another one: nothing looks at its digest until a
turn writes it.

* `RunState.digestSteps` : what a turn does to the digest;
* `CompletedTurn.digest_eq`, `Chronicle.digest_eq` : **the digest after a turn, and after some turns,
  is what their steps have made of it;**
* `Agent.Remembers`, `Agent.remembers_after` : what is therefore known of it;
* `Agent.run_memory` : **the digests of a run are within their limits and have lost no line that is
  not counted**, if the run began so (`Agent.crowded_memory`).
-/

namespace Conductor

namespace RunState

/-- What a turn does to the digest. -/
def digestSteps (s : RunState) (action : Action) (seen : Option Observation) : List Digest.Step :=
  .log ("turn " ++ toString (s.turnIndex + 1) ++ ": " ++ action.describe) ::
    (action.plan?.map fun subgoals =>
      Digest.Step.log ("replanned: " ++ "; ".intercalate subgoals)).toList ++
    (seen.map fun o => Digest.Step.fold (s.turnIndex + 1) (namedFacts o)).toList

theorem digestAfter_eq (limits : DigestLimits) (s : RunState) (action : Action)
    (seen : Option Observation) :
    s.digestAfter limits action seen = Digest.after limits s.digest (s.digestSteps action seen) := by
  cases action <;> cases seen <;> rfl

end RunState

namespace Agent

variable {σ : Type} {a : Agent σ} {runId : String} {policy : FailurePolicy}

namespace CompletedTurn

variable (t : a.CompletedTurn runId policy)

/-- What the turn has done to the digest. -/
def digestSteps : List Digest.Step := t.before.digestSteps t.action t.next.lastObservation

/-- **The turn has made its digest by its steps.** -/
theorem digest_eq : t.next.digest = Digest.after a.digestLimits t.before.digest t.digestSteps := by
  obtain ⟨seen, critique, hnext⟩ := t.yields.advances
  have hseen : t.next.lastObservation = seen := congrArg RunState.lastObservation hnext
  have hdigest : t.next.digest = t.before.digestAfter a.digestLimits t.action seen :=
    congrArg RunState.digest hnext
  rw [hdigest, digestSteps, hseen, RunState.digestAfter_eq]

/-- Every turn logs its action. -/
theorem logs : ∃ line, .log line ∈ t.digestSteps := ⟨_, List.mem_cons_self ..⟩

/-- A call puts in the facts that it has observed. -/
theorem folds (h : t.action.IsCall) : ∃ turn facts, .fold turn facts ∈ t.digestSteps := by
  obtain ⟨c, n, w, haction⟩ := h
  have hyields : a.Yields t.before (.callTool c n w) t.outcome := haction ▸ t.yields
  obtain ⟨o, hseen, -⟩ := hyields.observes
  have hobserved : t.next.lastObservation = some o := hseen
  refine ⟨t.before.turnIndex + 1, RunState.namedFacts o, ?_⟩
  rw [digestSteps, hobserved]
  exact List.mem_append_right _ (List.mem_singleton_self _)

end CompletedTurn

/-- **The digest after some turns is what their steps have made of the first one.** -/
theorem Chronicle.digest_eq {goal : Goal} {budget : Budget} {s : Session σ}
    (c : a.Chronicle runId goal budget policy s) {done rest : List (a.CompletedTurn runId policy)}
    (hturns : a.turns runId goal budget policy s = done ++ rest) :
    (stateAfter c.first done).digest =
      Digest.after a.digestLimits c.first.digest (done.flatMap CompletedTurn.digestSteps) := by
  refine c.course.invariant (P := fun done state => state.digest =
    Digest.after a.digestLimits c.first.digest (done.flatMap CompletedTurn.digestSteps))
    rfl (fun done t h => ?_) hturns
  rw [t.digest_eq, h, List.flatMap_append, List.flatMap_singleton, Digest.after_append]

/-- What is known of a digest that began as the other one, after these turns. -/
structure Remembers (first : Digest) (done : List (a.CompletedTurn runId policy)) (d : Digest) :
    Prop where
  /-- It is within the limits, and has lost no line that is not counted, if the first one was made in
  steps as well. -/
  bounded : ∀ earlier, first = Digest.after a.digestLimits .empty earlier →
    d.Bounded a.digestLimits (Digest.told a.digestLimits .empty
      (earlier ++ done.flatMap CompletedTurn.digestSteps))
  /-- Every line that the turns have added is kept or counted, as long as the lines have a number of
  64 bits. -/
  counted : first.decisionLog.length + first.elided +
      (Digest.told a.digestLimits first (done.flatMap CompletedTurn.digestSteps)).length < 2 ^ 64 →
    d.decisionLog.length + d.elided = first.decisionLog.length + first.elided +
      (Digest.told a.digestLimits first (done.flatMap CompletedTurn.digestSteps)).length
  /-- The log is short after the first turn. -/
  log : done ≠ [] → d.decisionLog.length ≤ max 1 a.digestLimits.maxLog
  /-- The table is small after the first call. -/
  size : (∃ t ∈ done, t.action.IsCall) → d.entries.size ≤ a.digestLimits.maxEntries

/-- **What the steps of some turns have made of a digest remembers them.** -/
theorem remembers_after (first : Digest) (done : List (a.CompletedTurn runId policy)) :
    Remembers first done
      (Digest.after a.digestLimits first (done.flatMap CompletedTurn.digestSteps)) where
  bounded := by
    intro earlier hearlier
    rw [hearlier, ← Digest.after_append]
    exact Digest.bounded_after ..
  counted _ := Digest.counted_after ..
  log := by
    intro hne
    obtain ⟨t, ht⟩ := List.exists_mem_of_ne_nil _ hne
    obtain ⟨line, hline⟩ := t.logs
    exact Digest.length_after_le (List.mem_flatMap.2 ⟨t, ht, hline⟩)
  size := by
    rintro ⟨t, ht, hcall⟩
    obtain ⟨turn, facts, hfold⟩ := t.folds hcall
    exact Digest.size_after_le (List.mem_flatMap.2 ⟨t, ht, hfold⟩)

/-- **The memory of a run.** A digest that is made in steps is within its limits and has lost no line
that is not counted, and putting facts in leaves one line if any entry gives way. So it is with the
digests of a run between all its turns, those that fail included, and at its end, if the run began
with such a digest, be it empty. A run that began with any other digest counts the lines that it
adds all the same, unless the counter that it found is about to leave 64 bits; its log is short
after the first turn, and its table after the first call. -/
theorem run_memory {goal : Goal} {budget : Budget} {s : Session σ} :
    (∀ limits steps, (Digest.after limits .empty steps).Bounded limits
      (Digest.told limits .empty steps)) ∧
    (∀ (limits : DigestLimits) (d : Digest) (turn : Nat) (facts : List (String × String)),
      ((Digest.Step.fold turn facts).lines limits d.entries).length =
        if (d.fold limits turn facts).entries = Digest.noted turn facts d.entries then 0 else 1) ∧
    let first := a.firstState runId goal budget s
    (∀ done rest, a.turns runId goal budget policy s = done ++ rest →
      Remembers first.digest done (stateAfter first done).digest) ∧
    (∀ k b, (a.begun runId goal budget policy s)[k]? = some b →
      b.1 = stateAfter first ((a.turns runId goal budget policy s).take k)) ∧
    ∀ report s', (a.run runId goal budget policy).run s = (some report, s') →
      report.state = stateAfter first (a.turns runId goal budget policy s) := by
  obtain ⟨c⟩ := a.exists_chronicle runId policy goal budget s
  refine ⟨Digest.bounded_after, Digest.length_lines_fold, ?_⟩
  rw [c.firstState_eq]
  refine ⟨?_, fun k b hb => c.begun_eq hb, ?_⟩
  · intro done rest hturns
    rw [c.digest_eq hturns]
    exact remembers_after ..
  · intro report s' hrun
    obtain ⟨v, -, rfl⟩ := Option.map_eq_some_iff.1 (Prod.mk.inj (c.runs.symm.trans hrun)).1
    exact c.final_eq_stateAfter

open StateStore (Table)

/-- Finds two facts and stops, and has room for both of them, but only for one line. -/
def narrow : Agent Table :=
  { Agent.rehearsed
      [.rehearsed "search" [.output (.object [("a", .string "1"), ("b", .string "2")])]]
      [.calls "search", .stops "nothing left to do"] with
    digestLimits := ⟨2, 1⟩ }

theorem narrow_run :
    (Digest.told narrow.digestLimits .empty ((narrow.turns "run" .rehearsed .standard .standard
      .rehearsed).flatMap CompletedTurn.digestSteps)).length = 2 ∧
    ((narrow.run "run" .rehearsed .standard .standard).run .rehearsed).1.map Report.totalTurns =
      some 2 := by decide +kernel

/-- Of the lines for the two actions the last one is left, and the other one is counted. -/
theorem run_memory_narrow : ∃ report s',
    (narrow.run "run" .rehearsed .standard .standard).run .rehearsed = (some report, s') ∧
    report.state.digest.entries.size ≤ 2 ∧ report.state.digest.decisionLog.length = 1 ∧
    report.state.digest.elided = 1 := by
  obtain ⟨hlines, hends⟩ := narrow_run
  obtain ⟨report, s', hrun, -⟩ := Outside.exists_of_run_map hends
  obtain ⟨-, -, hbetween, -, hend⟩ :=
    @run_memory _ narrow "run" .standard .rehearsed .standard .rehearsed
  have hfresh : (narrow.firstState "run" .rehearsed .standard .rehearsed).digest =
      Digest.after narrow.digestLimits .empty [] := rfl
  have hfinal := (hbetween _ [] (List.append_nil _).symm).bounded [] hfresh
  rw [← hend report s' hrun, List.nil_append] at hfinal
  have hlog := congrArg List.length hfinal.log_eq_drop
  have helided := hfinal.elided
  have hmost : max 1 narrow.digestLimits.maxLog = 1 := rfl
  rw [List.length_drop, hlines, hmost] at hlog
  rw [hlines, hlog] at helided
  exact ⟨report, s', hrun, hfinal.size, hlog, helided⟩

/-- Stops at once, and has room for one fact. -/
def cramped : Agent Table := { quitter with digestLimits := ⟨1, 16⟩ }

/-- A memory that was filled with two facts when there was room for them. -/
def crowded : Session Table :=
  .start (.start false .never) [] (.ofList [("run", { RunState.initial .rehearsed .standard with
    digest := Digest.after ⟨2, 16⟩ .empty
      [.log "turn 1: call search", .fold 1 [("search.a", "1"), ("search.b", "2")]]
    turnIndex := 1 })])

theorem cramped_run : ((cramped.run "run" .rehearsed .standard .standard).run crowded).1.map
    (fun report => report.state.digest.entries.size) = some 2 := by decide +kernel

/-- A run does not make room in what it finds: both facts are still there when it ends. -/
theorem crowded_memory : ¬ ∀ (a : Agent Table) (runId : String) (goal : Goal) (budget : Budget)
    (policy : FailurePolicy) (s s' : Session Table) (report : Report),
    (a.run runId goal budget policy).run s = (some report, s') →
      report.state.digest.entries.size ≤ a.digestLimits.maxEntries := by
  intro hall
  obtain ⟨report, s', hrun, htwo⟩ := Outside.exists_of_run_map cramped_run
  have hone : report.state.digest.entries.size ≤ 1 := hall _ _ _ _ _ _ _ _ hrun
  omega

end Agent

end Conductor

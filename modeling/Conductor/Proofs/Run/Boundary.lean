import Conductor.Proofs.Policy
import Conductor.Proofs.Run.Chronicle
import Conductor.Proofs.Run.Ending

/-!
# Between two turns

When a turn of a run is over and the next one has not begun, the state of the run is that of its
last completed turn. What holds of the first state, and is kept by every completed turn, holds there.

* `Agent.stateAfter` : the state after some turns;
* `Course.invariant` : **what every completed turn keeps holds between all turns**, and may speak of
  the turns that came before;
* `RunState.Recounts` : the state tells what the run has done;
* `Chronicle.run_of_fault` : **a turn that fails ends the run, and leaves the state as it was;**
* `Agent.run_recounts` : **the state recounts between all turns of a run that began afresh.**
-/

namespace Conductor

/-! ### What a state tells of the actions before it -/

/-- The subgoals of a new plan. -/
def Action.plan? : Action → Option (List String)
  | .replan subgoals => some subgoals
  | _ => none

/-- The subgoals of the last plan among some actions. -/
def lastPlan (actions : List Action) : List String :=
  (actions.filterMap Action.plan?).getLast?.getD []

theorem lastPlan_concat (actions : List Action) (action : Action) :
    lastPlan (actions ++ [action]) = action.plan?.getD (lastPlan actions) := by
  rw [lastPlan, List.filterMap_append, List.getLast?_append, lastPlan]
  cases h : action.plan? <;> simp [h]

/-- The action is an attempt at a call. -/
def Action.IsCall (action : Action) : Prop := ∃ c n w, action = .callTool c n w

/-- The observation is that of an attempt at a call. -/
structure Observation.IsOf (o : Observation) (c : Call) (n : Nat) : Prop where
  tool : o.tool = c.name
  call : o.result.call = c
  attempt : o.result.attempt = n

/-- The state tells what has been done since the first state with this goal and budget: these
actions. Results are judged if there is a critic. -/
structure RunState.Recounts (goal : Goal) (budget : Budget) (judged : Prop) (actions : List Action)
    (s : RunState) : Prop where
  goal : s.goal = goal
  budget : s.budget = budget
  turnIndex : s.turnIndex = actions.length
  lastAction : s.lastAction = actions.getLast?
  subgoals : s.subgoals = lastPlan actions
  /-- Something was observed exactly if the last action was a call. -/
  observed : s.lastObservation.isSome = true ↔ ∃ action ∈ s.lastAction, action.IsCall
  /-- It was observed of that call and that attempt, and attempts are counted from one. -/
  observation : ∀ c n w, s.lastAction = some (.callTool c n w) → 1 ≤ n ∧
    ∀ o, s.lastObservation = some o → o.IsOf c n
  critique : s.lastCritique.isSome = true ↔ (∃ action ∈ s.lastAction, action.IsCall) ∧ judged

theorem RunState.recounts_initial (goal : Goal) (budget : Budget) (judged : Prop) :
    (initial goal budget).Recounts goal budget judged [] where
  goal := rfl
  budget := rfl
  turnIndex := rfl
  lastAction := rfl
  subgoals := rfl
  observed := by simp [initial]
  observation := nofun
  critique := by simp [initial]

namespace Agent

variable {σ : Type} {a : Agent σ} {runId : String} {policy : FailurePolicy}

/-! ### One turn -/

/-- **After an action the state tells of one action more.** -/
theorem Yields.recounts {goal : Goal} {budget : Budget} {actions : List Action} {state : RunState}
    {action : Action} {o : TurnOutcome} (h : a.Yields state action o)
    (hpos : ∀ c n w, action = .callTool c n w → 1 ≤ n)
    (hs : state.Recounts goal budget (a.critic.isSome = true) actions) :
    o.next.Recounts goal budget (a.critic.isSome = true) (actions ++ [action]) where
  goal := by cases h <;> exact hs.goal
  budget := h.budget.trans hs.budget
  turnIndex := by rw [h.turnIndex, hs.turnIndex, List.length_append, List.length_singleton]
  lastAction := by rw [h.lastAction, List.getLast?_concat]
  subgoals := by
    rw [lastPlan_concat, ← hs.subgoals]
    cases h <;> rfl
  observed := by
    rw [h.lastAction]
    cases h <;> simp [Agent.next, RunState.advance, Action.IsCall]
  observation := by
    intro c n w hlast
    obtain rfl := Option.some.inj (h.lastAction.symm.trans hlast)
    refine ⟨hpos c n w rfl, fun x hx => ?_⟩
    cases h with
    | called hr =>
      obtain rfl := Option.some.inj hx
      exact ⟨rfl, hr.call, hr.attempt⟩
  critique := by
    rw [h.lastAction]
    cases h with
    | called hr hc => simpa [Agent.next, RunState.advance, Action.IsCall] using hc
    | asked | stopped | replanned => simp [Agent.next, RunState.advance, Action.IsCall]

/-- Every action advances the state. -/
theorem Yields.advances {state : RunState} {action : Action} {o : TurnOutcome}
    (h : a.Yields state action o) :
    ∃ seen critique, o.next = state.advance a.digestLimits action seen critique := by
  cases h <;> exact ⟨_, _, rfl⟩

/-- After a call its result has been observed. -/
theorem Yields.observes {state : RunState} {c : Call} {n : Nat} {w : Duration} {o : TurnOutcome}
    (h : a.Yields state (.callTool c n w) o) :
    ∃ x, o.next.lastObservation = some x ∧ x.result.IsFor c n := by
  cases h with
  | called hr => exact ⟨_, rfl, hr⟩

/-- What was observed after an action is the result of the call that was made. -/
theorem Yields.observed {state : RunState} {action : Action} {o : TurnOutcome} {x : Observation}
    (h : a.Yields state action o) (hx : o.next.lastObservation = some x) :
    ∃ c n w, action = .callTool c n w ∧ x.result.IsFor c n := by
  cases h with
  | called hr =>
    obtain rfl := Option.some.inj hx
    exact ⟨_, _, _, rfl, hr⟩
  | asked | stopped | replanned => cases hx

namespace CompletedTurn

variable (t : a.CompletedTurn runId policy)

/-- An attempt is the first one, or has the number after that of the failure it follows on. -/
theorem attempt_pos {c : Call} {n : Nat} {w : Duration} (h : t.action = .callTool c n w) :
    1 ≤ n := by
  rcases FailurePolicy.resolve_eq_callTool h with ⟨rfl, -⟩ | ⟨failed, -, rfl, -⟩
  · exact Nat.le_refl 1
  · exact Nat.le_add_left 1 _

theorem recounts {goal : Goal} {budget : Budget} {actions : List Action}
    (h : t.before.Recounts goal budget (a.critic.isSome = true) actions) :
    t.next.Recounts goal budget (a.critic.isSome = true) (actions ++ [t.action]) :=
  t.yields.recounts (fun _ _ _ => t.attempt_pos) h

end CompletedTurn

/-! ### The states between the turns -/

/-- The state after some turns, of a run that began in this one. -/
def stateAfter (first : RunState) (done : List (a.CompletedTurn runId policy)) : RunState :=
  (done.getLast?.map CompletedTurn.next).getD first

@[simp] theorem stateAfter_nil (first : RunState) :
    stateAfter first ([] : List (a.CompletedTurn runId policy)) = first := rfl

@[simp] theorem stateAfter_concat (first : RunState) (done : List (a.CompletedTurn runId policy))
    (t : a.CompletedTurn runId policy) : stateAfter first (done ++ [t]) = t.next := by
  rw [stateAfter, List.getLast?_concat]
  rfl

/-- It is the first state, or some turn has left it. -/
theorem stateAfter_cases (first : RunState) (done : List (a.CompletedTurn runId policy)) :
    stateAfter first done = first ∨ ∃ t ∈ done, stateAfter first done = t.next := by
  cases h : done.getLast? with
  | none => exact .inl (by rw [stateAfter, h]; rfl)
  | some t => exact .inr ⟨t, List.mem_of_getLast? h, by rw [stateAfter, h]; rfl⟩

namespace Course

variable {left : Nat} {state final : RunState} {s s' : Session σ} {v : Option Verdict}
  {turns done rest : List (a.CompletedTurn runId policy)}

/-- **A turn begins in the state after those before it.** -/
theorem before_eq {t : a.CompletedTurn runId policy}
    (h : a.Course runId policy left state s (done ++ t :: rest) v final s') :
    t.before = stateAfter state done := by
  cases hlast : done.getLast? with
  | none =>
    obtain rfl := List.getLast?_eq_none_iff.1 hlast
    exact h.head_before t rfl
  | some p =>
    have hjoin := (List.isChain_append.1 h.linked).2.2 p hlast t rfl
    rw [stateAfter, hlast]
    exact hjoin.2

/-- **What holds at the beginning, and is kept by every completed turn, holds after each of the
turns.** It may speak of the turns that came before. -/
theorem invariant {P : List (a.CompletedTurn runId policy) → RunState → Prop}
    (h : a.Course runId policy left state s turns v final s') (hfirst : P [] state)
    (hturn : ∀ done t, P done t.before → P (done ++ [t]) t.next) (hturns : turns = done ++ rest) :
    P done (stateAfter state done) := by
  -- the turns are taken off from the end, and each of them began in the state before
  induction done using List.reverseRecOn generalizing rest with
  | nil => exact hfirst
  | append_singleton done t ih =>
    rw [List.append_assoc, List.singleton_append] at hturns
    have hbefore := ih hturns
    subst hturns
    rw [← h.before_eq] at hbefore
    rw [stateAfter_concat]
    exact hturn done t hbefore

/-- After a turn that gives a verdict there are no others. -/
theorem eq_nil_of_verdict {t : a.CompletedTurn runId policy}
    (h : a.Course runId policy left state s (done ++ t :: rest) v final s')
    (hv : t.verdict ≠ none) : rest = [] := by
  cases rest with
  | nil => rfl
  | cons u rest =>
    have hlinked := (List.isChain_append.1 h.linked).2.1
    exact absurd (List.isChain_cons_cons.1 hlinked).1.1 hv

/-- What holds at the beginning, and is kept by every completed turn, every turn finds. -/
theorem forall_before {P : RunState → Prop}
    (h : a.Course runId policy left state s turns v final s') (hfirst : P state)
    (hturn : ∀ t : a.CompletedTurn runId policy, P t.before → P t.next) :
    ∀ t ∈ turns, P t.before := by
  intro t ht
  obtain ⟨done, rest, rfl⟩ := List.mem_iff_append.1 ht
  rw [h.before_eq]
  exact h.invariant (P := fun _ => P) hfirst (fun _ => hturn) rfl

/-- What holds at the beginning, and is kept by every completed turn, every turn leaves. -/
theorem forall_next {P : RunState → Prop}
    (h : a.Course runId policy left state s turns v final s') (hfirst : P state)
    (hturn : ∀ t : a.CompletedTurn runId policy, P t.before → P t.next) :
    ∀ t ∈ turns, P t.next := by
  intro t ht
  obtain ⟨done, rest, rfl⟩ := List.mem_iff_append.1 ht
  rw [← stateAfter_concat state done t]
  exact h.invariant (P := fun _ => P) hfirst (fun _ => hturn) (List.append_cons ..)

end Course

namespace Chronicle

variable {goal : Goal} {budget : Budget} {s : Session σ}
  (c : a.Chronicle runId goal budget policy s)

theorem final_eq_stateAfter :
    c.final = stateAfter c.first (a.turns runId goal budget policy s) :=
  c.course.final_eq

include c in
/-- What is told of a run with a turn that gives a verdict. -/
theorem report_of_verdict {t : a.CompletedTurn runId policy}
    (ht : t ∈ a.turns runId goal budget policy s) {v : Verdict} (hv : t.verdict = some v) :
    ∃ s', (a.run runId goal budget policy).run s = (some ⟨runId, v, t.next⟩, s') := by
  obtain ⟨hverdict, hfinal, -⟩ := c.course.eq_of_verdict ht (by simp [hv])
  rw [c.runs, hverdict, hfinal, hv]
  exact ⟨_, rfl⟩

include c in
/-- A run with a turn that gives a verdict has no turns after it. -/
theorem turns_eq_of_verdict {k : Nat} {t u : a.CompletedTurn runId policy}
    (ht : (a.turns runId goal budget policy s)[k]? = some t)
    (hu : (a.turns runId goal budget policy s)[k + 1]? = some u) {v : Verdict}
    (hv : u.verdict = some v) :
    a.turns runId goal budget policy s =
      (a.turns runId goal budget policy s).take k ++ [t, u] := by
  obtain ⟨hk, rfl⟩ := List.getElem?_eq_some_iff.1 ht
  obtain ⟨hk', rfl⟩ := List.getElem?_eq_some_iff.1 hu
  have hcourse := c.course
  have hsplit := List.take_append_drop k (a.turns runId goal budget policy s)
  rw [List.drop_eq_getElem_cons hk, List.drop_eq_getElem_cons hk'] at hsplit
  rw [← hsplit, List.append_cons] at hcourse
  have hlast := hcourse.eq_nil_of_verdict (ne_of_eq_of_ne hv (Option.some_ne_none v))
  rw [hlast] at hsplit
  exact hsplit.symm

/-- A completed turn was begun, in a run that was not cancelled and had a turn left. -/
theorem started {t : a.CompletedTurn runId policy} (ht : t ∈ a.turns runId goal budget policy s) :
    t.before.turnIndex < c.first.budget.maxTurns ∧ t.start.clock.cancelled = false := by
  have hbegun : (t.before, t.start) ∈ a.begun runId goal budget policy s := by
    rw [c.begun]
    exact List.mem_append_left _ (List.mem_map_of_mem ht)
  obtain ⟨k, hk⟩ := List.mem_iff_getElem?.1 hbegun
  exact (c.begun_spec k _ hk).2

theorem next_turnIndex_le {t : a.CompletedTurn runId policy}
    (ht : t ∈ a.turns runId goal budget policy s) : t.next.turnIndex ≤ c.first.budget.maxTurns := by
  rw [t.next_turnIndex]
  exact (c.started ht).1

/-- Between all turns the budget has not been overdrawn, if it was not at the beginning. -/
theorem stateAfter_turnIndex_le (hfirst : c.first.turnIndex ≤ c.first.budget.maxTurns)
    {done rest : List (a.CompletedTurn runId policy)}
    (hturns : a.turns runId goal budget policy s = done ++ rest) :
    (stateAfter c.first done).turnIndex ≤ c.first.budget.maxTurns := by
  rcases stateAfter_cases c.first done with h | ⟨t, ht, h⟩
  · rwa [h]
  · rw [h]
    exact c.next_turnIndex_le (hturns ▸ List.mem_append_left rest ht)

/-- A turn that was begun is one of the completed turns, or the one that failed after them all. -/
theorem begun_cases {k : Nat} {b : RunState × Session σ}
    (h : (a.begun runId goal budget policy s)[k]? = some b) :
    (∃ t, (a.turns runId goal budget policy s)[k]? = some t ∧ (t.before, t.start) = b) ∨
      ((a.turns runId goal budget policy s).length ≤ k ∧ b ∈ c.failed) := by
  rw [c.begun] at h
  rcases Nat.lt_or_ge k (a.turns runId goal budget policy s).length with hk | hk
  · rw [List.getElem?_append_left (by simpa using hk), List.getElem?_map] at h
    exact .inl (Option.map_eq_some_iff.1 h)
  · rw [List.getElem?_append_right (by simpa using hk)] at h
    exact .inr ⟨hk, List.mem_of_getElem? h⟩

/-- **Every turn, also one that fails, begins in the state after the turns before it.** -/
theorem begun_eq {k : Nat} {b : RunState × Session σ}
    (h : (a.begun runId goal budget policy s)[k]? = some b) :
    b.1 = stateAfter c.first ((a.turns runId goal budget policy s).take k) := by
  rcases c.begun_cases h with ⟨t, ht, rfl⟩ | ⟨hk, hfailed⟩
  · obtain ⟨hk, rfl⟩ := List.getElem?_eq_some_iff.1 ht
    have hcourse := c.course
    rw [← List.take_append_drop k (a.turns runId goal budget policy s),
      List.drop_eq_getElem_cons hk] at hcourse
    exact hcourse.before_eq
  · rw [List.take_of_length_le hk, (c.breaks.eq_of_mem hfailed).1]
    exact c.final_eq_stateAfter

include c in
/-- A turn that was begun and does not fail is completed. -/
theorem completed_of_begun {k : Nat} {b : RunState × Session σ}
    (h : (a.begun runId goal budget policy s)[k]? = some b) {o : TurnOutcome} {s' : Session σ}
    (hstep : (a.step runId policy b.1).run b.2 = (.ok o, s')) :
    ∃ t, (a.turns runId goal budget policy s)[k]? = some t ∧ (t.before, t.start) = b := by
  rcases c.begun_cases h with ht | ⟨-, hfailed⟩
  · exact ht
  · obtain ⟨-, f, hfault, -⟩ := c.breaks.eq_of_mem hfailed
    cases (Prod.mk.inj (hfault.symm.trans hstep)).1

include c in
/-- **A turn that fails ends the run, and leaves the state as it was.** -/
theorem run_of_fault {b : RunState × Session σ} (hb : b ∈ a.begun runId goal budget policy s)
    {f : TurnFault} {s₁ : Session σ}
    (hstep : (a.step runId policy b.1).run b.2 = (.error f, s₁)) :
    ∃ s', (a.run runId goal budget policy).run s =
      ((verdictOfFault f).map (⟨runId, ·, b.1⟩), s') := by
  rw [c.begun] at hb
  rcases List.mem_append.1 hb with hb | hb
  · obtain ⟨t, -, rfl⟩ := List.mem_map.1 hb
    cases (Prod.mk.inj (hstep.symm.trans t.completes)).1
  · obtain ⟨hfinal, f', hstep', hverdict⟩ := c.breaks.eq_of_mem hb
    obtain rfl := Except.error.inj (Prod.mk.inj (hstep.symm.trans hstep')).1
    exact ⟨_, hfinal ▸ hverdict ▸ c.runs⟩

end Chronicle

/-! ### Whole runs -/

/-- **Between all turns of a run that began afresh the state tells what the run has done**: every
turn begins in such a state, also one that fails, the run ends in the last one, and a turn that fails
ends the run and leaves the state as it was. -/
theorem run_recounts {goal : Goal} {budget : Budget} {s : Session σ}
    (hfresh : a.firstState runId goal budget s = .initial goal budget) :
    (∀ done rest, a.turns runId goal budget policy s = done ++ rest →
      (stateAfter (.initial goal budget) done).Recounts goal budget (a.critic.isSome = true)
        (done.map CompletedTurn.action)) ∧
    (∀ k b, (a.begun runId goal budget policy s)[k]? = some b →
      b.1 = stateAfter (.initial goal budget) ((a.turns runId goal budget policy s).take k)) ∧
    (∀ report s', (a.run runId goal budget policy).run s = (some report, s') →
      report.state = stateAfter (.initial goal budget) (a.turns runId goal budget policy s)) ∧
    ∀ b ∈ a.begun runId goal budget policy s, ∀ f s₁,
      (a.step runId policy b.1).run b.2 = (.error f, s₁) →
      ∃ s', (a.run runId goal budget policy).run s =
        ((verdictOfFault f).map (⟨runId, ·, b.1⟩), s') := by
  obtain ⟨c⟩ := a.exists_chronicle runId policy goal budget s
  have hfirst : c.first = .initial goal budget := c.firstState_eq.symm.trans hfresh
  have hcourse := c.course
  rw [hfirst] at hcourse
  refine ⟨fun done rest hturns => ?_, fun k b hb => ?_, fun report s' hrun => ?_,
    fun b hb f s₁ hstep => c.run_of_fault hb hstep⟩
  · refine hcourse.invariant (P := fun done state => state.Recounts goal budget
      (a.critic.isSome = true) (done.map CompletedTurn.action))
      (RunState.recounts_initial goal budget _) (fun done t h => ?_) hturns
    rw [List.map_append, List.map_singleton]
    exact t.recounts h
  · rw [c.begun_eq hb, hfirst]
  · -- whatever is told at the end is told of the last state
    obtain ⟨v, -, rfl⟩ := Option.map_eq_some_iff.1 (Prod.mk.inj (c.runs.symm.trans hrun)).1
    exact hfirst ▸ c.final_eq_stateAfter

/-- Calls a tool, whose result does not satisfy the critic, makes a plan, and then is not
understood. -/
def wavering : Agent StateStore.Table :=
  { Agent.rehearsed [.rehearsed "search" [.output (.string "found")]]
      [.calls "search", .plans "look again", .text "?"] with
    critic := some (.plain "")
    criticModel := some (Reply.play [] (some "not yet")) }

theorem wavering_run :
    (wavering.begun "run" .rehearsed .standard .standard .rehearsed).length = 3 ∧
    (wavering.turns "run" .rehearsed .standard .standard .rehearsed).length = 2 ∧
    ((wavering.run "run" .rehearsed .standard .standard).run .rehearsed).1.map
      (fun report => (report.verdict.success, report.state.subgoals)) =
        some (false, ["look again"]) := by decide +kernel

/-- The third turn has failed, and the run has ended in the state that the plan has left. -/
theorem run_recounts_wavering : ∃ report s',
    (wavering.run "run" .rehearsed .standard .standard).run .rehearsed = (some report, s') ∧
    report.state.turnIndex = 2 ∧ report.state.subgoals = ["look again"] ∧
    ∃ actions, actions.length = 2 ∧
      report.state.Recounts .rehearsed .standard (wavering.critic.isSome = true) actions := by
  obtain ⟨-, hturns, hreport⟩ := wavering_run
  obtain ⟨hrecounts, -, htold, -⟩ :=
    @run_recounts _ wavering "run" .standard .rehearsed .standard .rehearsed rfl
  rcases hrun : (wavering.run "run" .rehearsed .standard .standard).run .rehearsed with ⟨told, s'⟩
  rw [hrun] at hreport
  obtain ⟨report, rfl, heq⟩ := Option.map_eq_some_iff.1 hreport
  have hlast := hrecounts _ [] (List.append_nil _).symm
  rw [← htold report s' hrun] at hlast
  refine ⟨report, s', rfl, ?_, (Prod.mk.inj heq).2, _, ?_, hlast⟩
  · rw [hlast.turnIndex, List.length_map, hturns]
  · rw [List.length_map, hturns]

end Agent

end Conductor

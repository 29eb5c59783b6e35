import Conductor.Proofs.Run.Accounts

/-!
# Cancellation

A run can become cancelled at any moment. From then on nothing is started any more, and the turn in
progress comes to its end: what it waits for is interrupted, and what comes to its end without
waiting counts. Then the run ends.

* `countP_le_one_of_suffix` : what follows the last start completes at most one turn;
* `Agent.Interrupted`, `Interrupted.step` : where a turn can be interrupted, and what becomes of it;
* `Agent.Settles` : a turn that ends its run by itself;
* `Agent.cancellation` : **every run that becomes cancelled heeds it.**
-/

namespace Conductor

/-! ### The record after the cancellation -/

/-- Lists that have a start and at most one hit each follow one another. What stands behind the last
start has at most one hit. -/
theorem countP_le_one_of_suffix {α : Type} {p q : α → Bool} {front rest before after : List α}
    {blocks : List (List α)} (hfront : front.countP q ≤ 1)
    (hp : ∀ b ∈ blocks, ∃ x ∈ b, p x = true) (hq : ∀ b ∈ blocks, b.countP q ≤ 1)
    (hrest : rest.countP q = 0) (h : front ++ (blocks.flatten ++ rest) = before ++ after)
    (hafter : ∀ x ∈ after, p x = false) : after.countP q ≤ 1 := by
  induction blocks generalizing front before with
  | nil =>
    have hcount := congrArg (List.countP q) h
    rw [List.flatten_nil, List.nil_append, List.countP_append, List.countP_append] at hcount
    omega
  | cons b blocks ih =>
    rw [List.flatten_cons, List.append_assoc] at h
    rcases List.append_eq_append_iff.1 h with ⟨mid, rfl, hmid⟩ | ⟨mid, rfl, rfl⟩
    · exact ih (hq b (by simp)) (fun b' hb' => hp b' (by simp [hb']))
        (fun b' hb' => hq b' (by simp [hb'])) hmid
    · -- the start of the next list would stand in what follows
      obtain ⟨x, hx, hpx⟩ := hp b (by simp)
      have hno := hafter x (by simp [hx])
      rw [hpx] at hno
      cases hno

/-! ### Interrupted calls -/

/-- The result of a call that was interrupted. -/
structure Result.IsCancelled (r : Result) : Prop where
  failed : r.ok = false
  code : r.code = .timeout
  detail : r.detail = some "cancelled"

open Outside Session

namespace Executor

variable {σ : Type} {x : Executor} {c : Call} {n : Nat} {tool : Tool} {s s' : Session σ}

/-- A body that is interrupted gives a failure. -/
theorem outcome_of_interrupted (ht : x.registry.get? c.name = some tool)
    (hargs : (Parameter.inputSchema tool.parameters).violationsOf
      (Parameter.applyDefaults tool.parameters c.args) = [])
    (hi : (x.invoke tool (tool.timeout.getD x.defaultTimeout)
      (Parameter.applyDefaults tool.parameters c.args) n).run s = (.interrupted, s')) :
    (x.outcome c n).run s = (.failure c n .timeout "cancelled", s') := by
  unfold outcome outcomeUnder
  simp only [ht, hargs]
  rw [run_bind, hi]
  rfl

theorem execute_of_interrupted {r : Result} {s₁ : Session σ}
    (ho : (x.outcome c n).run s = (.failure c n .timeout "cancelled", s₁))
    (hc : s₁.clock.cancelled = true) (h : (x.execute c n).run s = (r, s')) :
    r.IsCancelled ∧ s'.clock.cancelled = true := by
  obtain ⟨before, s₂, hb, h⟩ := run_bind_eq.1 h
  obtain rfl := now_eq hb
  obtain ⟨r₁, s₂, ho', h⟩ := run_bind_eq.1 h
  obtain ⟨rfl, rfl⟩ := Prod.mk.inj (ho'.symm.trans ho)
  obtain ⟨after, s₃, ha, h⟩ := run_bind_eq.1 h
  obtain rfl := now_eq ha
  obtain ⟨_, s₃, hn, h⟩ := run_bind_eq.1 h
  obtain ⟨rfl, rfl⟩ := run_pure_eq.1 h
  have hnoted := note_does hn (fun _ => rfl) rfl rfl
  exact ⟨⟨rfl, rfl, rfl⟩, hnoted.cancelled hc⟩

end Executor

namespace Agent

variable {σ : Type} {a : Agent σ} {runId : String} {policy : FailurePolicy} {state : RunState}
  {s s' : Session σ}

theorem call_of_interrupted {c : Call} {n : Nat} {r : Result} {s₁ : Session σ}
    (ho : (a.executor.outcome c n).run s = (.failure c n .timeout "cancelled", s₁))
    (hc : s₁.clock.cancelled = true) (h : (a.call c n).run s = (r, s')) :
    r.IsCancelled ∧ s'.clock.cancelled = true := by
  obtain ⟨r₁, s₂, hx, h⟩ := run_bind_eq.1 h
  obtain ⟨hr, hs⟩ := a.executor.execute_of_interrupted ho hc hx
  obtain ⟨rfl, rfl⟩ := run_pure_eq.1 h
  have hrepair : a.executor.repair? r₁ = none := by
    refine a.executor.repair?_of_code ?_
    rw [hr.code]
    decide
  refine ⟨?_, hs⟩
  split
  · rw [hrepair]
    exact hr
  · exact hr

/-- **In a run that is cancelled the critic is not asked**, and does not find the goal satisfied. -/
theorem judge_of_cancelled {goal : Goal} {o : Observation} {x : Except TurnFault (Option Critique)}
    (h : (a.judge goal o).run s = (x, s')) (hc : s.clock.cancelled = true) :
    s'.clock.cancelled = true ∧ ∃ critique, x = .ok critique ∧ verdictOf critique = none := by
  obtain ⟨asked, -, hdoes, -⟩ := a.judge_does h
  refine ⟨hdoes.cancelled hc, ?_⟩
  unfold judge at h
  split at h
  · obtain ⟨rfl, -⟩ := run_pure_eq.1 h
    exact ⟨none, rfl, rfl⟩
  · rename_i critic _
    obtain ⟨y, s₁, hj, h⟩ := run_bind_eq.1 h
    obtain ⟨rfl, -⟩ := run_pure_eq.1 h
    unfold assess at hj
    split at hj
    · obtain ⟨e, s₂, hask, hj⟩ := run_bind_eq.1 hj
      rcases a.askCritic_does hask with ⟨-, rfl⟩ | ⟨-, hno, -⟩
      · obtain ⟨rfl, -⟩ := run_pure_eq.1 hj
        exact ⟨some Critic.cancelled, rfl, rfl⟩
      · rw [hc] at hno
        cases hno
    · obtain ⟨rfl, -⟩ := run_pure_eq.1 hj
      exact ⟨some (Critic.notEvaluated o.tool), rfl, rfl⟩

theorem doCall_of_interrupted {action : Action} {c : Call} {n : Nat}
    {x : Except TurnFault TurnOutcome} {s₁ : Session σ}
    (ho : (a.executor.outcome c n).run s = (.failure c n .timeout "cancelled", s₁))
    (hc : s₁.clock.cancelled = true) (h : (a.doCall runId state action c n).run s = (x, s')) :
    s'.clock.cancelled = true ∧ ∃ r critique, x = .ok
      ⟨a.next state action (some (a.normalizer.observe c.name r.data r)) critique, none⟩ ∧
        r.IsCancelled := by
  obtain ⟨r, s₂, hr, h⟩ := run_bind_eq.1 h
  obtain ⟨hcancelled, hs₂⟩ := a.call_of_interrupted ho hc hr
  obtain ⟨_, s₃, he, h⟩ := run_bind_eq.1 h
  have hs₃ := (emit_does he fun _ => rfl).cancelled hs₂
  obtain ⟨y, s₄, hj, h⟩ := run_bind_eq.1 h
  obtain ⟨hs₄, critique, rfl, hnone⟩ := judge_of_cancelled hj hs₃
  obtain ⟨rfl, rfl⟩ := run_pure_eq.1 h
  exact ⟨hs₄, r, critique, by rw [hnone], hcancelled⟩

/-- A critic that is interrupted does not find the goal satisfied. -/
theorem judge_of_interrupted {critic : Critic} {goal : Goal} {o : Observation}
    (hcritic : a.critic = some critic) (heval : critic.evaluates o.tool = true)
    (hask : (a.askCritic (critic.prompt goal o)).run s = (.interrupted, s')) :
    (a.judge goal o).run s = (.ok (some Critic.cancelled), s') := by
  unfold judge
  simp only [hcritic]
  rw [run_bind, assess, if_pos heval, run_bind, hask]
  rfl

/-! ### Interrupted turns -/

variable (a runId) in
/-- The announcement of a turn and its decision. -/
def openTurn (state : RunState) : Outside σ (Except TurnFault Decision) := do
  Outside.emit (.turnStarted runId (state.turnIndex + 1))
  a.decide state

/-- What the cancellation interrupts in a turn. -/
inductive Interruption where
  /-- The answer of the model, or the wait before a call. -/
  | decision
  /-- The body of the tool. -/
  | call (action : Action)
  /-- The answer about what the call has given. -/
  | critique (action : Action) (o : Observation)

/-- The state in which the run ends after an interruption of a turn that began in the other one. -/
def Interruption.Leaves (before : RunState) : Interruption → RunState → Prop
  | .decision, final => final = before
  | .call action, final => final.lastAction = some action ∧
      ∃ o, final.lastObservation = some o ∧ o.result.IsCancelled
  | .critique action o, final => final.lastAction = some action ∧
      final.lastObservation = some o ∧ final.lastCritique = some Critic.cancelled

variable (a runId policy) in
/-- The cancellation interrupts a turn that was begun like this. -/
inductive Interrupted (b : RunState × Session σ) : Interruption → Prop
  | asking {s₁ s₂ : Session σ}
      (he : (Outside.emit (.turnStarted runId (b.1.turnIndex + 1))).run b.2 = ((), s₁))
      (hask : (a.askPlanner (a.planner.prompt a.executor.registry b.1)).run s₁ =
        (.interrupted, s₂)) :
      Interrupted b .decision
  | waiting {s₁ s₂ : Session σ} {d : Decision} {c : Call} {n : Nat} {w : Duration}
      (hd : (a.openTurn runId b.1).run b.2 = (.ok d, s₁))
      (ha : a.resolve policy b.1 d = .callTool c n w)
      (hw : (pause w).run s₁ = (.error .cancelled, s₂)) :
      Interrupted b .decision
  | calling {s₁ s₂ s₃ : Session σ} {d : Decision} {c : Call} {n : Nat} {w : Duration} {tool : Tool}
      (hd : (a.openTurn runId b.1).run b.2 = (.ok d, s₁))
      (ha : a.resolve policy b.1 d = .callTool c n w)
      (hw : (pause w).run s₁ = (.ok (), s₂))
      (ht : a.executor.registry.get? c.name = some tool)
      (hargs : (Parameter.inputSchema tool.parameters).violationsOf
        (Parameter.applyDefaults tool.parameters c.args) = [])
      (hi : (a.executor.invoke tool (tool.timeout.getD a.executor.defaultTimeout)
        (Parameter.applyDefaults tool.parameters c.args) n).run s₂ = (.interrupted, s₃)) :
      Interrupted b (.call (.callTool c n w))
  | judging {s₁ s₂ s₃ s₄ s₅ : Session σ} {d : Decision} {c : Call} {n : Nat} {w : Duration}
      {r : Result} {o : Observation} {critic : Critic}
      (hd : (a.openTurn runId b.1).run b.2 = (.ok d, s₁))
      (ha : a.resolve policy b.1 d = .callTool c n w)
      (hw : (pause w).run s₁ = (.ok (), s₂))
      (hr : (a.call c n).run s₂ = (r, s₃)) (ho : o = a.normalizer.observe c.name r.data r)
      (he : (Outside.emit (.toolCalled runId c.name o.summary)).run s₃ = ((), s₄))
      (hcritic : a.critic = some critic) (heval : critic.evaluates o.tool = true)
      (hask : (a.askCritic (critic.prompt b.1.goal o)).run s₄ = (.interrupted, s₅)) :
      Interrupted b (.critique (.callTool c n w) o)

variable {b : RunState × Session σ}

/-- A turn that has decided goes on with the action. -/
theorem turn_of_openTurn {d : Decision} {s₁ s₂ : Session σ} {x : Except TurnFault TurnOutcome}
    (he : (Outside.emit (.turnStarted runId (state.turnIndex + 1))).run s = ((), s₁))
    (hd : (a.openTurn runId state).run s = (.ok d, s₂))
    (h : (a.turn runId policy state).run s₁ = (x, s')) :
    (a.act runId state (a.resolve policy state d)).run s₂ = (x, s') := by
  rw [openTurn, run_bind, he] at hd
  rw [turn, run_bind, hd] at h
  exact h

/-- **What becomes of a turn that is interrupted.** Before its call it fails, and leaves the state
as it is. Else it is completed, gives no verdict, and its state shows what was interrupted. -/
theorem Interrupted.step {i : Interruption} (h : a.Interrupted runId policy b i)
    (hb : b.2.clock.cancelled = false) :
    (((a.step runId policy b.1).run b.2).1 = .error .cancelled ∧ i = .decision) ∨
      ∃ o s', (a.step runId policy b.1).run b.2 = (.ok o, s') ∧ s'.clock.cancelled = true ∧
        o.verdict = none ∧ i.Leaves b.1 o.next := by
  rcases hstep : (a.step runId policy b.1).run b.2 with ⟨x, s'⟩
  obtain ⟨s₁, he, -, y, s₂, ht, herror, hok⟩ := a.step_announced hstep hb
  -- an action that is done in a run that is cancelled by then is a completed turn
  have hcompleted {o : TurnOutcome} (hy : y = .ok o) (hs₂ : s₂.clock.cancelled = true)
      (hnone : o.verdict = none) (hleaves : i.Leaves b.1 o.next) :
      ∃ o s'', (x, s') = (.ok o, s'') ∧ s''.clock.cancelled = true ∧ o.verdict = none ∧
        i.Leaves b.1 o.next := by
    obtain ⟨rfl, ms, hrest⟩ := hok o hy
    exact ⟨o, s', rfl, hrest.cancelled hs₂, hnone, hleaves⟩
  cases h with
  | asking he' hask =>
    obtain ⟨-, rfl⟩ := Prod.mk.inj (he.symm.trans he')
    rw [turn, decide, run_bind, run_bind, hask] at ht
    exact .inl ⟨(herror .cancelled (run_pure_eq.1 ht).1.symm).1, rfl⟩
  | waiting hd ha hw =>
    have hact := turn_of_openTurn he hd ht
    rw [ha, act, run_bind, hw] at hact
    exact .inl ⟨(herror .cancelled (run_pure_eq.1 hact).1.symm).1, rfl⟩
  | @calling s₃ s₄ s₅ d c n w tool hd ha hw htool hargs hi =>
    have hact := turn_of_openTurn he hd ht
    rw [ha, act, run_bind, hw] at hact
    have hc : s₅.clock.cancelled = true := by
      rcases a.executor.invoke_does hi with ⟨hheld, -⟩ | ⟨-, -, hc⟩
      · exact hheld.cancelled
      · exact hc rfl
    have ho := Executor.outcome_of_interrupted htool hargs hi
    obtain ⟨hs₂, r, critique, hy, hcancelled⟩ := doCall_of_interrupted ho hc hact
    exact .inr (hcompleted hy hs₂ rfl ⟨rfl, _, rfl, hcancelled⟩)
  | @judging s₃ s₄ s₅ s₆ s₇ d c n w r o critic hd ha hw hr ho he' hcritic heval hask =>
    subst ho
    have hact := turn_of_openTurn he hd ht
    rw [ha, act, run_bind, hw] at hact
    have hc : s₇.clock.cancelled = true := by
      rcases a.askCritic_does hask with ⟨hheld, -⟩ | ⟨-, -, m, hans, -⟩
      · exact hheld.cancelled
      · exact hans.interrupted rfl
    change (a.doCall runId b.1 _ c n).run s₄ = _ at hact
    rw [doCall, run_bind, hr, run_bind, he', run_bind, judge_of_interrupted hcritic heval hask]
      at hact
    obtain ⟨hy, rfl⟩ := run_pure_eq.1 hact
    exact .inr (hcompleted hy.symm hc rfl ⟨rfl, rfl, rfl⟩)

/-! ### Turns that settle their run -/

variable (a runId policy) in
/-- A turn that was begun like this ends its run by itself: it stops, it asks the user, the critic
finds the goal satisfied, or it fails of something else than the cancellation. -/
inductive Settles (b : RunState × Session σ) : Verdict → RunState → Prop
  | stop {o : TurnOutcome} {r : String} {s' : Session σ}
      (hstep : (a.step runId policy b.1).run b.2 = (.ok o, s'))
      (h : o.next.lastAction = some (.stop r)) :
      Settles b ⟨.stopped, claimsAchievement r, r⟩ o.next
  | ask {o : TurnOutcome} {q : String} {fields : List String} {s' : Session σ}
      (hstep : (a.step runId policy b.1).run b.2 = (.ok o, s'))
      (h : o.next.lastAction = some (.askUser q fields)) :
      Settles b ⟨.awaitingUser, false, stopUserInput⟩ o.next
  | satisfied {o : TurnOutcome} {k : Critique} {s' : Session σ}
      (hstep : (a.step runId policy b.1).run b.2 = (.ok o, s'))
      (h : o.next.lastCritique = some k) (hk : k.goalSatisfied = true) :
      Settles b ⟨.stopped, true, "Goal achieved: " ++ k.assessment⟩ o.next
  | failed {f : TurnFault} {s' : Session σ}
      (hstep : (a.step runId policy b.1).run b.2 = (.error f, s')) (hf : f ≠ .cancelled)
      (hf' : f ≠ .stalled) :
      Settles b (stopped f.message) b.1

/-- The verdict of a turn shows in the state that it left. -/
theorem Yields.verdict_eq_some_iff {action : Action} {o : TurnOutcome} {v : Verdict}
    (h : a.Yields state action o) :
    o.verdict = some v ↔
      (∃ r, o.next.lastAction = some (.stop r) ∧ ⟨.stopped, claimsAchievement r, r⟩ = v) ∨
      (∃ q fields, o.next.lastAction = some (.askUser q fields) ∧
        ⟨.awaitingUser, false, stopUserInput⟩ = v) ∨
      ∃ k, o.next.lastCritique = some k ∧ k.goalSatisfied = true ∧
        ⟨.stopped, true, "Goal achieved: " ++ k.assessment⟩ = v := by
  cases h with
  | @called c n w r critique hr hc =>
    cases critique with
    | none => simp [verdictOf, next, RunState.advance]
    | some k =>
      cases hk : k.goalSatisfied <;> simp [verdictOf, next, RunState.advance, hk]
  | asked => simp [next, RunState.advance]
  | stopped => simp [next, RunState.advance]
  | replanned => simp [next, RunState.advance]

/-- **A completed turn settles its run exactly if it gives a verdict.** -/
theorem CompletedTurn.settles_iff (t : a.CompletedTurn runId policy) {v : Verdict}
    {final : RunState} :
    a.Settles runId policy (t.before, t.start) v final ↔ t.verdict = some v ∧ final = t.next := by
  have hout {o : TurnOutcome} {s' : Session σ}
      (hstep : (a.step runId policy t.before).run t.start = (.ok o, s')) : o = t.outcome :=
    Except.ok.inj (Prod.mk.inj (hstep.symm.trans t.completes)).1
  constructor
  · intro h
    cases h with
    | stop hstep h =>
      obtain rfl := hout hstep
      exact ⟨t.yields.verdict_eq_some_iff.2 (.inl ⟨_, h, rfl⟩), rfl⟩
    | ask hstep h =>
      obtain rfl := hout hstep
      exact ⟨t.yields.verdict_eq_some_iff.2 (.inr (.inl ⟨_, _, h, rfl⟩)), rfl⟩
    | satisfied hstep h hk =>
      obtain rfl := hout hstep
      exact ⟨t.yields.verdict_eq_some_iff.2 (.inr (.inr ⟨_, h, hk, rfl⟩)), rfl⟩
    | failed hstep => cases (Prod.mk.inj (hstep.symm.trans t.completes)).1
  · rintro ⟨hv, rfl⟩
    rcases t.yields.verdict_eq_some_iff.1 hv with
      ⟨r, h, rfl⟩ | ⟨q, fields, h, rfl⟩ | ⟨k, h, hk, rfl⟩
    · exact .stop t.completes h
    · exact .ask t.completes h
    · exact .satisfied t.completes h hk

/-- A turn that has failed settles its run if it was not for the cancellation. -/
theorem settles_iff_of_fault {f : TurnFault} {v : Verdict} {final : RunState}
    (hstep : (a.step runId policy b.1).run b.2 = (.error f, s')) :
    a.Settles runId policy b v final ↔
      (f ≠ .cancelled ∧ f ≠ .stalled) ∧ v = stopped f.message ∧ final = b.1 := by
  constructor
  · intro h
    cases h with
    | stop h | ask h | satisfied h => cases (Prod.mk.inj (h.symm.trans hstep)).1
    | failed h hf hf' =>
      obtain rfl := Except.error.inj (Prod.mk.inj (h.symm.trans hstep)).1
      exact ⟨⟨hf, hf'⟩, rfl, rfl⟩
  · rintro ⟨⟨hf, hf'⟩, rfl, rfl⟩
    exact .failed hstep hf hf'

theorem verdictOfFault_eq {f : TurnFault} (hf : f ≠ .cancelled) (hf' : f ≠ .stalled) :
    verdictOfFault f = some (stopped f.message) := by
  cases f with
  | cancelled => exact absurd rfl hf
  | stalled => exact absurd rfl hf'
  | decision | model | panicked => rfl

/-- **How a loop ends that has become cancelled**: as its last turn settles it, or as cancelled. -/
theorem Course.verdict_of_cancelled {left : Nat} {final : RunState} {v : Option Verdict}
    {turns : List (a.CompletedTurn runId policy)}
    (h : a.Course runId policy left state s turns v final s') (hc : s'.clock.cancelled = true) :
    ∃ verdict, v = some verdict ∧
      (∀ b ∈ (a.begunFrom runId policy left state s).getLast?, ∀ w last,
        a.Settles runId policy b w last → verdict = w ∧ final = last) ∧
      ((∀ b ∈ (a.begunFrom runId policy left state s).getLast?, ∀ w last,
        ¬ a.Settles runId policy b w last) → verdict = stopped stopCancelled) := by
  induction h with
  | @halted left state s s' r halt =>
    have hr := (halt?_does halt).2.2 r rfl
    rw [if_pos hc] at hr
    rw [begunFrom_of_halt halt]
    exact ⟨_, rfl, by simp, fun _ => by rw [hr]⟩
  | @failed left state s s₁ s' f halt step =>
    obtain ⟨hopen, -⟩ := (halt?_does halt).2.1 rfl
    obtain ⟨hshows, -⟩ := a.step_fault_does step hopen
    -- a turn that never ends waits for a model, and not in a cancelled run
    have hstalled : f ≠ .stalled := by
      intro hf
      rw [(hshows.stalled hf).1] at hc
      cases hc
    have hiff {v : Verdict} {final : RunState} : a.Settles runId policy (state, s₁) v final ↔ _ :=
      settles_iff_of_fault step
    rw [begunFrom_of_fault halt step]
    by_cases hf : f = .cancelled
    · subst hf
      refine ⟨_, rfl, ?_, fun _ => rfl⟩
      rintro b ⟨⟩ w last hsettles
      exact absurd rfl (hiff.1 hsettles).1.1
    · refine ⟨_, verdictOfFault_eq hf hstalled, ?_, fun hno => ?_⟩
      · rintro b ⟨⟩ w last hsettles
        obtain ⟨-, rfl, rfl⟩ := hiff.1 hsettles
        exact ⟨rfl, rfl⟩
      · exact absurd (hiff.2 ⟨⟨hf, hstalled⟩, rfl, rfl⟩) (hno (state, s₁) rfl _ _)
  | @ended left s t v halt hv =>
    rw [begunFrom_of_verdict halt hv]
    refine ⟨v, rfl, ?_, fun hno => ?_⟩
    · rintro b ⟨⟩ w last hsettles
      obtain ⟨hw, rfl⟩ := t.settles_iff.1 hsettles
      exact ⟨Option.some.inj (hv.symm.trans hw), rfl⟩
    · exact absurd (t.settles_iff.2 ⟨hv, rfl⟩) (hno (t.before, t.start) rfl _ _)
  | @goesOn left s s' t turns v final halt hv rest ih =>
    obtain ⟨verdict, hverdict, hsettled, hunsettled⟩ := ih hc
    rw [begunFrom_of_next halt hv]
    refine ⟨verdict, hverdict, ?_⟩
    cases hlater : a.begunFrom runId policy left t.next t.after with
    | nil =>
      rw [hlater] at hunsettled
      refine ⟨?_, fun _ => hunsettled (by simp)⟩
      rintro b ⟨⟩ w last hsettles
      obtain ⟨hw, -⟩ := t.settles_iff.1 hsettles
      rw [hv] at hw
      cases hw
    | cons b later =>
      rw [hlater] at hsettled hunsettled
      rw [List.getLast?_cons_cons]
      exact ⟨hsettled, hunsettled⟩

/-! ### Whole runs -/

/-- The turns are those of which something was done. -/
theorem exists_did_of_mem {turns : List (a.CompletedTurn runId policy)}
    {blocks : List (List Happening)} (h : List.Forall₂ CompletedTurn.Did turns blocks) :
    ∀ ds ∈ blocks, ∃ t : a.CompletedTurn runId policy, t.Did ds := by
  induction h with
  | nil => simp
  | @cons t ds turns blocks hdid hrest ih =>
    intro ds' hds'
    rcases List.mem_cons.1 hds' with rfl | hds'
    · exact ⟨t, hdid⟩
    · exact ih ds' hds'

theorem CompletedTurn.Did.exists_isStart {t : a.CompletedTurn runId policy} {ds : List Happening}
    (h : t.Did ds) : ∃ x ∈ ds, x.isStart = true := by
  cases h
  exact ⟨.emitted (.turnStarted runId (t.before.turnIndex + 1)), by simp [opening], rfl⟩

@[simp] theorem closed_clock (v : Option Verdict) (s : Session σ) :
    (a.closed runId v s).clock = s.clock := by
  cases v with
  | none => rfl
  | some v =>
    unfold closed Outside.clear
    cases a.store <;> rfl

namespace Chronicle

variable {goal : Goal} {budget : Budget} {s : Session σ}
  (c : a.Chronicle runId goal budget policy s)

/-- **Once the run is cancelled nothing is started, and at most one turn is completed.** -/
theorem after_cancellation {hs before after : List Happening}
    (hdeeds : deeds hs = c.loaded ++ (c.blocks.flatten ++ c.rest) ++ c.cleared)
    (hheeded : Heeded s.clock.cancelled hs) (hsplit : hs = before ++ after)
    (hc : s.clock.cancelled = true ∨ Happening.cancelled ∈ before) :
    (∀ h ∈ after, h.isStart = false) ∧ after.countP Happening.completesTurn ≤ 1 := by
  subst hsplit
  have hno := hheeded.after hc
  refine ⟨hno, ?_⟩
  have hloaded : c.loaded.countP Happening.completesTurn ≤ 1 := by
    rcases c.loads with h | h <;> simp [h, Happening.completesTurn]
  have hrest : (c.rest ++ c.cleared).countP Happening.completesTurn = 0 := by
    rw [List.countP_append, c.breaks.account.1]
    rcases c.clears with h | h <;> simp [h, Happening.completesTurn]
  have hsplit : c.loaded ++ (c.blocks.flatten ++ (c.rest ++ c.cleared)) =
      deeds before ++ deeds after := by
    rw [← deeds_append, hdeeds]
    simp
  have hdid := exists_did_of_mem c.did
  rw [← countP_deeds rfl]
  refine countP_le_one_of_suffix hloaded (fun ds hds => ?_) (fun ds hds => ?_) hrest hsplit
    fun x hx => hno x (List.mem_filter.1 hx).1
  · obtain ⟨t, ht⟩ := hdid ds hds
    exact ht.exists_isStart
  · obtain ⟨t, ht⟩ := hdid ds hds
    exact ht.account.1.le

/-- **A turn that is interrupted is the last one**, and the run ends in the state that it leaves. -/
theorem of_interrupted {i : Interruption} (hb : b ∈ a.begun runId goal budget policy s)
    (h : a.Interrupted runId policy b i) :
    c.verdict = some (stopped stopCancelled) ∧ i.Leaves b.1 c.final := by
  obtain ⟨k, hk⟩ := List.mem_iff_getElem?.1 hb
  have hstep := h.step (c.begun_spec k b hk).2.2
  rw [c.begun] at hb
  rcases List.mem_append.1 hb with hb | hb
  · -- the turn is completed, and after it the loop finds the run cancelled
    obtain ⟨t, ht, rfl⟩ := List.mem_map.1 hb
    rcases hstep with ⟨hstep, -⟩ | ⟨o, s', hstep, hc, hnone, hleaves⟩
    · rw [t.completes] at hstep
      cases hstep
    obtain ⟨ho, rfl⟩ := Prod.mk.inj (hstep.symm.trans t.completes)
    obtain rfl := Except.ok.inj ho
    obtain ⟨before, after, hsplit⟩ := List.append_of_mem ht
    have hcourse := c.course
    rw [hsplit] at hcourse
    obtain ⟨n, -, hrest⟩ := hcourse.cut hnone
    obtain ⟨-, hv, hfinal, -⟩ := hrest.of_cancelled hc
    exact ⟨hv, hfinal ▸ hleaves⟩
  · -- the turn has failed
    obtain ⟨hfinal, f, hf, hv⟩ := c.breaks.eq_of_mem hb
    rw [hf] at hstep
    rcases hstep with ⟨hstep, rfl⟩ | ⟨o, s', hstep, -⟩
    · obtain rfl := Except.error.inj hstep
      exact ⟨hv, hfinal.symm⟩
    · cases (Prod.mk.inj hstep).1

end Chronicle

/-- **A run that becomes cancelled, at whatever moment, heeds it.** From this moment on no turn, no
request to a model and no body of a tool is started, and at most one turn is completed. The run ends
in the state that its last completed turn has left: as its last turn settles it, if that turn does,
and else as cancelled. If a turn is interrupted, the run ends as cancelled; its state shows nothing
of an interrupted decision, and shows an interrupted call as failed. -/
theorem cancellation {goal : Goal} {budget : Budget} {told : Option Report}
    (hrun : (a.run runId goal budget policy).run s = (told, s'))
    (hcancelled : s'.clock.cancelled = true) :
    (∃ hs, s'.trace = s.trace ++ hs ∧ (s.clock.cancelled = true ∨ Happening.cancelled ∈ hs) ∧
      ∀ before after, hs = before ++ after →
        (s.clock.cancelled = true ∨ Happening.cancelled ∈ before) →
          (∀ h ∈ after, h.isStart = false) ∧ after.countP Happening.completesTurn ≤ 1) ∧
    ∃ report, told = some report ∧
      report.state = ((a.turns runId goal budget policy s).getLast?.map
        CompletedTurn.next).getD (a.firstState runId goal budget s) ∧
      (∀ b ∈ (a.begun runId goal budget policy s).getLast?, ∀ verdict final,
        a.Settles runId policy b verdict final →
          report.verdict = verdict ∧ report.state = final) ∧
      ((∀ b ∈ (a.begun runId goal budget policy s).getLast?, ∀ verdict final,
        ¬ a.Settles runId policy b verdict final) → report.verdict = stopped stopCancelled) ∧
      ∀ b ∈ a.begun runId goal budget policy s, ∀ i, a.Interrupted runId policy b i →
        report.verdict = stopped stopCancelled ∧ i.Leaves b.1 report.state := by
  obtain ⟨c⟩ := a.exists_chronicle runId policy goal budget s
  obtain ⟨rfl, rfl⟩ := Prod.mk.inj (hrun.symm.trans c.runs)
  obtain ⟨hs, htrace, hdeeds, hheeded, hclock⟩ := c.record.record
  have hended : c.ended.clock.cancelled = true := by rwa [closed_clock] at hcancelled
  obtain ⟨verdict, hv, hsettled, hunsettled⟩ := c.course.verdict_of_cancelled hended
  rw [c.begunFrom_eq] at hsettled hunsettled
  -- the record shows the moment, unless it was before the run
  have hmoment : s.clock.cancelled = true ∨ Happening.cancelled ∈ hs := by
    rw [hcancelled] at hclock
    rcases Bool.or_eq_true_iff.1 hclock.symm with h | h
    · exact .inl h
    · obtain ⟨x, hx, hxc⟩ := List.any_eq_true.1 h
      cases x with
      | cancelled => exact .inr hx
      | _ => cases hxc
  refine ⟨⟨hs, htrace, hmoment, fun before after hsplit hc => ?_⟩,
    ⟨runId, verdict, c.final⟩, by rw [hv]; rfl, ?_, hsettled, hunsettled, ?_⟩
  · exact c.after_cancellation hdeeds hheeded hsplit hc
  · rw [c.firstState_eq]
    exact c.course.final_eq
  · intro b hb i h
    obtain ⟨hcancel, hleaves⟩ := c.of_interrupted hb h
    exact ⟨Option.some.inj (hv.symm.trans hcancel), hleaves⟩

/-- Its tool waits until the run is cancelled. -/
def awaiter : Agent StateStore.Table :=
  .rehearsed [.rehearsed "fetch" [.awaitCancel (.output (.string "page"))]]
    [.calls "fetch", .stops "Goal achieved"]

/-- The cancellation comes while the tool is running. -/
theorem cancellation_awaiter : ∃ report s' hs,
    (awaiter.run "run" .rehearsed .standard .standard).run
      (.start (.start false (.atTime 5)) [] .empty) = (some report, s') ∧
    report.verdict = stopped stopCancelled ∧ report.totalTurns = 1 ∧
    s'.trace = hs ∧ Happening.cancelled ∈ hs ∧
    ∀ before after, hs = before ++ after → Happening.cancelled ∈ before →
      (∀ h ∈ after, h.isStart = false) ∧ after.countP Happening.completesTurn ≤ 1 := by
  rcases hrun : (awaiter.run "run" .rehearsed .standard .standard).run
    (.start (.start false (.atTime 5)) [] .empty) with ⟨told, s'⟩
  have hends : (((awaiter.run "run" .rehearsed .standard .standard).run
      (.start (.start false (.atTime 5)) [] .empty)).1.map
        fun r => (r.verdict, r.totalTurns)) = some (stopped stopCancelled, 1) ∧
      ((awaiter.run "run" .rehearsed .standard .standard).run
        (.start (.start false (.atTime 5)) [] .empty)).2.clock.cancelled = true := by
    decide +kernel
  rw [hrun] at hends
  obtain ⟨hreport, hc⟩ := hends
  obtain ⟨report, rfl, hr⟩ := Option.map_eq_some_iff.1 hreport
  obtain ⟨hverdict, hturns⟩ := Prod.mk.inj hr
  obtain ⟨⟨hs, htrace, hmoment, hafter⟩, -⟩ := cancellation hrun hc
  refine ⟨report, s', hs, rfl, hverdict, hturns, htrace, ?_, fun before after hsplit hb => ?_⟩
  · rcases hmoment with h | h
    · cases h
    · exact h
  · exact hafter before after hsplit (.inr hb)

/-- Its model cancels the run and answers at once. -/
def hasty : Agent StateStore.Table :=
  .rehearsed [] [.cancelThen "\x7b\"action\":\"stop\",\"reason\":\"goal achieved\"\x7d"]

/-- An answer counts that comes at the moment at which the run is cancelled: what is interrupted is
waiting. -/
theorem answer_counts_at_cancellation : ¬ ∀ (a : Agent StateStore.Table) (runId : String)
    (goal : Goal) (budget : Budget) (policy : FailurePolicy)
    (s s' : Session StateStore.Table) (report : Report),
    (a.run runId goal budget policy).run s = (some report, s') →
    ∀ b ∈ a.begun runId goal budget policy s, ∀ s₁ s₂ e,
      (Outside.emit (.turnStarted runId (b.1.turnIndex + 1))).run b.2 = ((), s₁) →
      s₁.clock.cancelled = false →
      (a.askPlanner (a.planner.prompt a.executor.registry b.1)).run s₁ = (e, s₂) →
      s₂.clock.cancelled = true → report.verdict = stopped stopCancelled := by
  intro h
  have hasked : (hasty.begun "run" .rehearsed .standard .standard .rehearsed).any (fun b =>
      let s₁ := ((Outside.emit (.turnStarted "run" (b.1.turnIndex + 1))).run b.2).2
      !s₁.clock.cancelled &&
        ((hasty.askPlanner (hasty.planner.prompt hasty.executor.registry b.1)).run
          s₁).2.clock.cancelled) = true := by decide +kernel
  have hends : ((hasty.run "run" .rehearsed .standard .standard).run .rehearsed).1.map
      (·.verdict) = some ⟨.stopped, true, "goal achieved"⟩ := by decide +kernel
  obtain ⟨b, hb, hc⟩ := List.any_eq_true.1 hasked
  obtain ⟨hopen, hcancelled⟩ := Bool.and_eq_true_iff.1 hc
  rw [Bool.not_eq_true'] at hopen
  rcases hrun : (hasty.run "run" .rehearsed .standard .standard).run .rehearsed with ⟨told, s'⟩
  rw [hrun] at hends
  obtain ⟨report, rfl, hverdict⟩ := Option.map_eq_some_iff.1 hends
  have hno := h hasty "run" .rehearsed .standard .standard .rehearsed s' report hrun b hb _ _ _ rfl
    hopen rfl hcancelled
  rw [hverdict] at hno
  exact absurd (congrArg Verdict.success hno) (by decide)

end Agent

end Conductor

import Conductor.Proofs.Run.Outside
import Conductor.Run.Loop

/-!
# What a turn yields

A turn that is completed has decided, has resolved the decision to an action, and has done the
action. What it leaves behind depends on the action alone: the state is advanced by it, and there
is a verdict exactly for a question, a stop and a satisfied critique.

* `Agent.call_isFor` : **the result of a call is for that call and that attempt**, also when its
  output is repaired;
* `Agent.Yields` : what an action can give;
* `Agent.act_yields`, `Agent.turn_yields`, `Agent.step_yields` : **a turn gives nothing else;**
* `Agent.step_of_turn` : a turn that does not fail is completed.
-/

namespace Conductor

/-! ### Results -/

/-- The result is that of an attempt at a call. -/
structure Result.IsFor (r : Result) (c : Call) (n : Nat) : Prop where
  call : r.call = c
  attempt : r.attempt = n

namespace Executor

variable {σ : Type} (x : Executor) {violations : Json → Json → List String} {c : Call} {n : Nat}

theorem returnedUnder_isFor (tool : Tool) (data : Json) :
    (returnedUnder violations tool c n data).IsFor c n := by
  unfold returnedUnder
  split
  · exact ⟨rfl, rfl⟩
  · split <;> exact ⟨rfl, rfl⟩

theorem concludeUnder_isFor (tool : Tool) (timeout : Duration)
    (e : Ended (Except Failure Json)) :
    (concludeUnder violations tool timeout c n e).IsFor c n := by
  rcases e with (_ | data) | _ | _ | _ | _
  · exact ⟨rfl, rfl⟩
  · exact returnedUnder_isFor tool data
  all_goals exact ⟨rfl, rfl⟩

theorem outcomeUnder_isFor {r : Result} {s s' : Session σ}
    (h : (x.outcomeUnder violations c n).run s = (r, s')) : r.IsFor c n := by
  unfold outcomeUnder at h
  split at h
  · obtain ⟨rfl, -⟩ := Outside.run_pure_eq.1 h
    exact ⟨rfl, rfl⟩
  · rename_i tool _
    simp only at h
    split at h
    · obtain ⟨e, s₁, -, h⟩ := Outside.run_bind_eq.1 h
      obtain ⟨rfl, -⟩ := Outside.run_pure_eq.1 h
      exact concludeUnder_isFor ..
    · obtain ⟨rfl, -⟩ := Outside.run_pure_eq.1 h
      exact ⟨rfl, rfl⟩

/-- An attempt has its outcome, which is recorded with the time that it took. -/
theorem executeUnder_outcome {r : Result} {s s' : Session σ}
    (h : (x.executeUnder violations c n).run s = (r, s')) :
    ∃ r₀ s₁ ms, (x.outcomeUnder violations c n).run s = (r₀, s₁) ∧
      (Outside.note (.audited (auditOf c n ms r₀))).run s₁ = ((), s') ∧
      r = { r₀ with latency := .millis ms } := by
  obtain ⟨before, s₀, hb, h⟩ := Outside.run_bind_eq.1 h
  obtain ⟨-, rfl⟩ := Prod.mk.inj hb
  obtain ⟨r₀, s₁, ho, h⟩ := Outside.run_bind_eq.1 h
  obtain ⟨after, s₂, ha, h⟩ := Outside.run_bind_eq.1 h
  obtain ⟨-, rfl⟩ := Prod.mk.inj ha
  obtain ⟨_, s₃, hn, h⟩ := Outside.run_bind_eq.1 h
  obtain ⟨rfl, rfl⟩ := Outside.run_pure_eq.1 h
  exact ⟨r₀, s₁, _, ho, hn, rfl⟩

theorem execute_outcome {r : Result} {s s' : Session σ} (h : (x.execute c n).run s = (r, s')) :
    ∃ r₀ s₁ ms, (x.outcome c n).run s = (r₀, s₁) ∧
      (Outside.note (.audited (auditOf c n ms r₀))).run s₁ = ((), s') ∧
      r = { r₀ with latency := .millis ms } := x.executeUnder_outcome h

theorem executeUnder_isFor {r : Result} {s s' : Session σ}
    (h : (x.executeUnder violations c n).run s = (r, s')) : r.IsFor c n := by
  obtain ⟨r₀, s₁, ms, ho, -, rfl⟩ := x.executeUnder_outcome h
  exact ⟨(x.outcomeUnder_isFor ho).call, (x.outcomeUnder_isFor ho).attempt⟩

/-- Only an output that does not conform is repaired. -/
theorem repair?_of_code {r : Result} (h : r.code ≠ .outputSchemaMismatch) :
    x.repair? r = none := by
  unfold repair? repairUnder?
  rw [if_pos h]

theorem repairUnder?_isFor {r r' : Result} (hr : r.IsFor c n)
    (h : x.repairUnder? violations r = some r') : r'.IsFor c n := by
  unfold repairUnder? at h
  split at h
  · cases h
  · simp only [Option.bind_eq_bind, Option.bind_eq_some_iff] at h
    obtain ⟨tool, -, schema, -, fixed, -, h⟩ := h
    obtain rfl := Option.some.inj h
    exact ⟨hr.call, hr.attempt⟩

end Executor

/-! ### Actions -/

namespace Agent

variable {σ : Type} (a : Agent σ) {runId : String} {policy : FailurePolicy} {state : RunState}
  {s s' : Session σ}

/-- **The result of a call is for that call and that attempt.** -/
theorem call_isFor {c : Call} {n : Nat} {r : Result} (h : (a.call c n).run s = (r, s')) :
    r.IsFor c n := by
  obtain ⟨r₁, s₁, hx, h⟩ := Outside.run_bind_eq.1 h
  obtain ⟨rfl, -⟩ := Outside.run_pure_eq.1 h
  have hr := a.executor.executeUnder_isFor hx
  split
  · cases hf : a.executor.repair? r₁ with
    | none => exact hr
    | some r' => exact a.executor.repairUnder?_isFor hr hf
  · exact hr

/-- What doing an action in a state can give. -/
inductive Yields (state : RunState) : Action → TurnOutcome → Prop where
  /-- A call gives the observation of its result, and a critique of it if there is a critic. -/
  | called {c : Call} {n : Nat} {w : Duration} {r : Result} {critique : Option Critique}
      (hr : r.IsFor c n) (hc : critique.isSome = a.critic.isSome) :
      Yields state (.callTool c n w)
        ⟨a.next state (.callTool c n w) (some (a.normalizer.observe c.name r.data r)) critique,
          verdictOf critique⟩
  | asked {q : String} {fields : List String} :
      Yields state (.askUser q fields)
        ⟨a.next state (.askUser q fields) none none, some ⟨.awaitingUser, false, stopUserInput⟩⟩
  | stopped {r : String} :
      Yields state (.stop r)
        ⟨a.next state (.stop r) none none, some ⟨.stopped, claimsAchievement r, r⟩⟩
  | replanned {gs : List String} :
      Yields state (.replan gs) ⟨a.next state (.replan gs) none none, none⟩

theorem judge_isSome {goal : Goal} {o : Observation} {critique : Option Critique}
    (h : (a.judge goal o).run s = (.ok critique, s')) : critique.isSome = a.critic.isSome := by
  unfold judge at h
  split at h <;> rename_i hc
  · obtain ⟨rfl, -⟩ := Outside.run_ok_eq.1 h
    rw [hc]
    rfl
  · obtain ⟨e, s₁, -, h⟩ := Outside.run_bind_eq.1 h
    obtain ⟨h, -⟩ := Outside.run_pure_eq.1 h
    cases e with
    | error f => cases h
    | ok critique' =>
      obtain rfl := Except.ok.inj h
      rw [hc]
      rfl

theorem doCall_yields {c : Call} {n : Nat} {w : Duration} {o : TurnOutcome}
    (h : (a.doCall runId state (.callTool c n w) c n).run s = (.ok o, s')) :
    a.Yields state (.callTool c n w) o := by
  obtain ⟨r, s₁, hr, h⟩ := Outside.run_bind_eq.1 h
  obtain ⟨_, s₂, -, h⟩ := Outside.run_bind_eq.1 h
  obtain ⟨critique, s₃, hj, h⟩ := Outside.run_bind_ok h fun _ => rfl
  obtain ⟨rfl, -⟩ := Outside.run_ok_eq.1 h
  exact .called (a.call_isFor hr) (a.judge_isSome hj)

/-- **An action that is done gives what `Yields` says.** -/
theorem act_yields {action : Action} {o : TurnOutcome}
    (h : (a.act runId state action).run s = (.ok o, s')) : a.Yields state action o := by
  cases action with
  | callTool c n w =>
    obtain ⟨_, s₁, -, h⟩ := Outside.run_bind_ok h fun _ => rfl
    exact a.doCall_yields h
  | askUser q fields =>
    obtain ⟨_, s₁, -, h⟩ := Outside.run_bind_eq.1 h
    obtain ⟨rfl, -⟩ := Outside.run_ok_eq.1 h
    exact .asked
  | stop r =>
    obtain ⟨rfl, -⟩ := Outside.run_ok_eq.1 h
    exact .stopped
  | replan gs =>
    obtain ⟨rfl, -⟩ := Outside.run_ok_eq.1 h
    exact .replanned

/-! ### Turns -/

/-- **A completed turn decides, and yields what the resolved decision yields.** -/
theorem turn_yields {o : TurnOutcome} (h : (a.turn runId policy state).run s = (.ok o, s')) :
    ∃ d s₁, (a.decide state).run s = (.ok d, s₁) ∧
      a.Yields state (a.resolve policy state d) o := by
  obtain ⟨d, s₁, hd, h⟩ := Outside.run_bind_ok h fun _ => rfl
  exact ⟨d, s₁, hd, a.act_yields h⟩

/-- What the model decides when it is asked in a state, once the turn has been announced. -/
def decided (runId : String) (state : RunState) (s : Session σ) : Except TurnFault Decision :=
  ((do
    Outside.emit (.turnStarted runId (state.turnIndex + 1))
    a.decide state).run s).1

/-- **A completed step decides, and yields what the resolved decision yields.** -/
theorem step_yields {o : TurnOutcome} (h : (a.step runId policy state).run s = (.ok o, s')) :
    ∃ d, a.decided runId state s = .ok d ∧ a.Yields state (a.resolve policy state d) o := by
  obtain ⟨_, s₁, he, h⟩ := Outside.run_bind_eq.1 h
  obtain ⟨started, s₂, hn, h⟩ := Outside.run_bind_eq.1 h
  obtain ⟨o', s₃, ht, h⟩ := Outside.run_bind_ok h fun _ => rfl
  obtain ⟨_, s₄, -, h⟩ := Outside.run_bind_eq.1 h
  obtain ⟨_, s₅, -, h⟩ := Outside.run_bind_eq.1 h
  obtain ⟨_, s₆, -, h⟩ := Outside.run_bind_eq.1 h
  obtain ⟨rfl, -⟩ := Outside.run_ok_eq.1 h
  obtain ⟨d, s₇, hd, hy⟩ := a.turn_yields ht
  -- reading the clock between the announcement and the question leaves the outside as it is
  obtain rfl : s₁ = s₂ := congrArg Prod.snd hn
  refine ⟨d, ?_, hy⟩
  rw [decided, Outside.run_bind, he, hd]

namespace Yields

variable {a} {action : Action} {o : TurnOutcome}

theorem turnIndex (h : a.Yields state action o) : o.next.turnIndex = state.turnIndex + 1 := by
  cases h <;> rfl

theorem budget (h : a.Yields state action o) : o.next.budget = state.budget := by
  cases h <;> rfl

theorem goal (h : a.Yields state action o) : o.next.goal = state.goal := by
  cases h <;> rfl

theorem lastAction (h : a.Yields state action o) : o.next.lastAction = some action := by
  cases h <;> rfl

theorem verdict_of_stop {reason : String} (h : a.Yields state (.stop reason) o) :
    o.verdict = some ⟨.stopped, claimsAchievement reason, reason⟩ := by
  cases h
  rfl

end Yields

/-! ### Turns that are completed -/

section Completed

variable {a} {s₁ : Session σ} {o : TurnOutcome}

/-- Without a critic a call is always followed by the next state. -/
theorem doCall_unjudged (runId : String) (state : RunState) (action : Action) {c : Call} {n : Nat}
    {r : Result} (hcritic : a.critic = none) (hcall : (a.call c n).run s = (r, s₁)) :
    ∃ s₂, (a.doCall runId state action c n).run s =
        (.ok ⟨a.next state action (some (a.normalizer.observe c.name r.data r)) none, none⟩, s₂) ∧
      s₂.clock = s₁.clock := by
  let summary := (a.normalizer.observe c.name r.data r).summary
  refine ⟨((Outside.emit (.toolCalled runId c.name summary)).run s₁).2, ?_, rfl⟩
  rw [doCall, Outside.run_bind, hcall]
  simp only [judge, hcritic]
  rfl

/-- After a turn that did not fail, its event is told and its state is stored. -/
theorem step_of_turn
    (h : (a.turn runId policy state).run
      ((Outside.emit (.turnStarted runId (state.turnIndex + 1))).run s).2 = (.ok o, s₁)) :
    ∃ s₂, s₂.clock = s₁.clock ∧ (a.step runId policy state).run s =
      (.ok o, ((Outside.save a.store runId o.next).run s₂).2) :=
  let completed := Event.turnCompleted runId (state.turnIndex + 1) (s₁.clock.now - s.clock.now)
    (lastActionKind o.next)
  ⟨((Outside.emit completed).run s₁).2, rfl, Outside.run_bind_eq.2 ⟨_, _, rfl,
    Outside.run_bind_eq.2 ⟨_, _, rfl, Outside.run_bind_eq.2 ⟨_, _, h, rfl⟩⟩⟩⟩

end Completed

end Agent

end Conductor

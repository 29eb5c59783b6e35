import Conductor.Proofs.Run.Course
import Conductor.Proofs.Run.Record

/-!
# What is done in a turn

A turn is announced, the model is asked, the action is done, the end of the turn is told, and the
next state is stored. What is done for an action depends on its kind only; a turn that fails breaks
off on the way.

* `Agent.CallDeeds`, `Agent.ActionDeeds`, `Agent.TurnDeeds`, `Agent.FaultDeeds` : what can be done
  for a call, for an action, in a completed turn and in one that fails;
* `Agent.Shows` : a fault that comes of the cancellation shows in the clock, and a turn never ends
  only if a request to a model never ends;
* `CompletedTurn.does_saving`, `Agent.step_fault_does` : **a step of the loop does nothing else.**
-/

namespace Conductor

/-- In a run with this signal every request to the model comes to an end. -/
def Model.Returns (m : Model) (signal : Signal) : Prop :=
  ∀ n p c, c.signal = signal → ((m n p).answer.run none c).1 ≠ .stalled

/-- In a run with this signal every request to a model comes to an end. -/
structure Agent.Returns {σ : Type} (a : Agent σ) (signal : Signal) : Prop where
  planner : a.model.Returns signal
  critic : ∀ m, a.criticModel = some m → m.Returns signal

/-- A fault that comes of the cancellation shows in the clock; a turn that never ends waits for a
model, and not for the cancellation. -/
structure Agent.Shows {σ : Type} (a : Agent σ) (f : TurnFault) (s : Session σ) : Prop where
  cancelled : f = .cancelled → s.clock.cancelled = true
  stalled : f = .stalled → s.clock.cancelled = false ∧ ¬ a.Returns s.clock.signal

open Outside Session

/-! ### Requests and waits -/

namespace Outside

variable {σ : Type} {s s' : Session σ}

/-- A sleep comes to its end, unless the run is cancelled by then. -/
theorem attempt_sleep {ms : Nat} {e : Ended Unit}
    (h : (attempt (.sleep ms (.done ()))).run s = (e, s')) :
    (s.HeldBack s' ∧ e = .interrupted) ∨
      (s.Does [] s' ∧ e = .returned () ∧ s'.clock.cancelled = false) := by
  obtain ⟨c, s₁, hl, h⟩ := run_bind_eq.1 h
  cases c with
  | true =>
    obtain ⟨rfl, rfl⟩ := run_pure_eq.1 h
    exact .inl ⟨look_heldBack hl, rfl⟩
  | false =>
    obtain ⟨hlook, hc⟩ := look_does hl
    rw [if_neg Bool.false_ne_true] at h
    obtain ⟨hperformed, -⟩ := perform_does h
    have hdoes := hlook.nil_trans hperformed
    obtain ⟨rfl, rfl⟩ := Prod.mk.inj h
    obtain ⟨c', ⟨hrun, hc'⟩ | ⟨hrun, hc', hn⟩⟩ := Activity.run_sleep ms () hc.symm
    · have hopen := (congrArg (·.2.cancelled) hrun).trans hc'
      exact .inr ⟨hdoes, congrArg Prod.fst hrun, hopen⟩
    · have hcancelled := (congrArg (·.2.cancelled) hrun).trans hc'
      rw [hlook.signal] at hn
      exact .inl ⟨⟨hdoes, hcancelled, .inr hn⟩, congrArg Prod.fst hrun⟩

end Outside

namespace Agent

variable {σ : Type} {s s' : Session σ}

/-- A wait is over, or the run was cancelled meanwhile. -/
theorem pause_does {w : Duration} {x : Except TurnFault Unit}
    (h : (pause w).run s = (x, s')) :
    s.Does [] s' ∧ (x = .ok () ∨ (x = .error .cancelled ∧ s'.clock.cancelled = true)) := by
  unfold pause at h
  by_cases hw : w.nanos = 0
  · rw [if_pos hw] at h
    obtain ⟨rfl, rfl⟩ := run_pure_eq.1 h
    exact ⟨.refl s, .inl rfl⟩
  · rw [if_neg hw] at h
    obtain ⟨e, s₁, ha, h⟩ := run_bind_eq.1 h
    rcases attempt_sleep ha with ⟨hheld, rfl⟩ | ⟨hdoes, rfl, -⟩
    · obtain ⟨rfl, rfl⟩ := run_pure_eq.1 h
      exact ⟨hheld.does, .inr ⟨rfl, hheld.cancelled⟩⟩
    · obtain ⟨rfl, rfl⟩ := run_pure_eq.1 h
      exact ⟨hdoes, .inl rfl⟩

/-- Counting a request changes nothing else. -/
structure Counts (count : Session σ → Session σ) : Prop where
  trace : ∀ s, (count s).trace = s.trace
  bus : ∀ s, (count s).bus = s.bus
  clock : ∀ s, (count s).clock = s.clock

/-- How a request ended shows in the clock. -/
structure Answered {α : Type} (m : Model) (e : Ended α) (s' : Session σ) : Prop where
  interrupted : e = .interrupted → s'.clock.cancelled = true
  expired : e ≠ .expired
  stalled : e = .stalled → s'.clock.cancelled = false ∧ ¬ m.Returns s'.clock.signal

/-- **A model is asked, unless the run is cancelled before.** -/
theorem request_does {m : Model} {counted : Session σ → Nat} {count : Session σ → Session σ}
    {hp : Prompt → Happening} {p : Prompt} {e : Ended (Except ModelError String)}
    (h : (request m counted count hp p).run s = (e, s')) (hcount : Counts count)
    (hh : (hp p).isCancelled = false) (he : (hp p).event? = none) :
    (s.HeldBack s' ∧ e = .interrupted) ∨
      (s.Does [hp p] s' ∧ s.clock.cancelled = false ∧ Answered m e s') := by
  obtain ⟨r, s₀, hg, h⟩ := run_bind_eq.1 h
  obtain ⟨rfl, rfl⟩ := Prod.mk.inj hg
  obtain ⟨e₁, s₁, ha, h⟩ := run_bind_eq.1 h
  rcases attempt_sleep ha with ⟨hheld, rfl⟩ | ⟨hwait, rfl, hc⟩
  · obtain ⟨rfl, rfl⟩ := run_pure_eq.1 h
    exact .inl ⟨hheld, rfl⟩
  · -- the request has arrived; it is recorded before the model answers
    right
    obtain ⟨_, s₂, hm, h⟩ := run_bind_eq.1 h
    obtain ⟨-, rfl⟩ := Prod.mk.inj hm
    obtain ⟨_, s₃, hn, h⟩ := run_bind_eq.1 h
    have hcounted : s₁.Does [] (count s₁) :=
      .of_eq (hcount.trace s₁) (hcount.bus s₁) (hcount.clock s₁)
    have hnoted := note_does hn (fun hc' => by simp [hcount.clock, hc] at hc') hh he
    obtain ⟨hperformed, hends⟩ := perform_does h
    refine ⟨?_, hwait.uncancelled hc, hends.interrupted, ?_, ?_⟩
    · exact hwait.nil_trans (hcounted.nil_trans (hnoted.trans_nil hperformed))
    · exact fun hexp => hends.expired hexp rfl
    · intro hst
      have hrun : ((m (counted s) p).answer.run none s₃.clock).1 = .stalled :=
        (congrArg Prod.fst h).trans hst
      exact ⟨(hends.stalled hst).2, fun hm => hm _ _ _ hends.signal.symm hrun⟩

variable (a : Agent σ)

theorem askPlanner_does {p : Prompt} {e : Ended (Except ModelError String)}
    (h : (a.askPlanner p).run s = (e, s')) :
    (s.HeldBack s' ∧ e = .interrupted) ∨
      (s.Does [.plannerAsked p] s' ∧ s.clock.cancelled = false ∧ Answered a.model e s') :=
  request_does h ⟨fun _ => rfl, fun _ => rfl, fun _ => rfl⟩ rfl rfl

/-- The critic asks its own model, or that of the planner. -/
theorem askCritic_does {p : Prompt} {e : Ended (Except ModelError String)}
    (h : (a.askCritic p).run s = (e, s')) :
    (s.HeldBack s' ∧ e = .interrupted) ∨
      (s.Does [.criticAsked p] s' ∧ s.clock.cancelled = false ∧
        ∃ m, Answered m e s' ∧ ∀ signal, a.Returns signal → m.Returns signal) := by
  unfold askCritic at h
  split at h
  · rename_i m hm
    refine (request_does h ⟨fun _ => rfl, fun _ => rfl, fun _ => rfl⟩ rfl rfl).imp_right ?_
    exact fun ⟨hdoes, hc, hans⟩ => ⟨hdoes, hc, m, hans, fun _ hret => hret.critic m hm⟩
  · refine (request_does h ⟨fun _ => rfl, fun _ => rfl, fun _ => rfl⟩ rfl rfl).imp_right ?_
    exact fun ⟨hdoes, hc, hans⟩ => ⟨hdoes, hc, a.model, hans, fun _ hret => hret.planner⟩

variable {a} in
/-- A request that never ends is waited for, unless its model always comes to an end. -/
theorem Answered.shows_stalled {α : Type} {m : Model} (h : Answered m (.stalled : Ended α) s')
    (hm : ∀ signal, a.Returns signal → m.Returns signal) : a.Shows .stalled s' :=
  ⟨nofun, fun _ => (h.stalled rfl).imp_right (mt (hm _))⟩

/-- **The model is asked for a decision, unless the run is cancelled before.** -/
theorem decide_does {state : RunState} {x : Except TurnFault Decision}
    (h : (a.decide state).run s = (x, s')) :
    (s.HeldBack s' ∧ x = .error .cancelled) ∨
      (s.Does [.plannerAsked (a.planner.prompt a.executor.registry state)] s' ∧
        s.clock.cancelled = false ∧ ∀ f, x = .error f → a.Shows f s') := by
  obtain ⟨e, s₁, hask, h⟩ := run_bind_eq.1 h
  rcases a.askPlanner_does hask with ⟨hheld, rfl⟩ | ⟨hdoes, hc, hans⟩
  · obtain ⟨rfl, rfl⟩ := run_pure_eq.1 h
    exact .inl ⟨hheld, rfl⟩
  -- the reply becomes a decision or a fault, and the outside stays as it is
  have hreply : s₁ = s' ∧ ∀ f, x = .error f → a.Shows f s₁ := by
    cases e with
    | returned r =>
      cases r with
      | error err =>
        obtain ⟨rfl, rfl⟩ := run_pure_eq.1 h
        exact ⟨rfl, by rintro f ⟨⟩; exact ⟨nofun, nofun⟩⟩
      | ok reply =>
        obtain ⟨rfl, rfl⟩ := run_pure_eq.1 h
        refine ⟨rfl, fun f hf => ?_⟩
        cases hd : Decision.parse reply with
        | ok d => simp [hd, Except.mapError] at hf
        | error g =>
          simp only [hd, Except.mapError, Except.error.injEq] at hf
          subst hf
          exact ⟨nofun, nofun⟩
    | panicked m =>
      obtain ⟨rfl, rfl⟩ := run_pure_eq.1 h
      exact ⟨rfl, by rintro f ⟨⟩; exact ⟨nofun, nofun⟩⟩
    | interrupted =>
      obtain ⟨rfl, rfl⟩ := run_pure_eq.1 h
      exact ⟨rfl, by rintro f ⟨⟩; exact ⟨fun _ => hans.interrupted rfl, nofun⟩⟩
    | expired => exact absurd rfl hans.expired
    | stalled =>
      obtain ⟨rfl, rfl⟩ := run_pure_eq.1 h
      exact ⟨rfl, by rintro f ⟨⟩; exact hans.shows_stalled fun _ hret => hret.planner⟩
  obtain ⟨rfl, hfault⟩ := hreply
  exact .inr ⟨hdoes, hc, hfault⟩

end Agent

/-! ### Calls -/

namespace Executor

variable {σ : Type} {s s' : Session σ} (x : Executor)

/-- In a run that goes on the body of a tool is started. -/
theorem invoke_starts {tool : Tool} {timeout : Duration} {args : Json} {n : Nat}
    {e : Ended (Except Failure Json)} (h : (x.invoke tool timeout args n).run s = (e, s'))
    (hopen : s.clock.look.cancelled = false) :
    s.Does [.invoked tool.name args] s' ∧ s.clock.cancelled = false ∧
      (e = .interrupted → s'.clock.cancelled = true) := by
  obtain ⟨c, s₁, hl, h⟩ := run_bind_eq.1 h
  obtain ⟨hlook, hc⟩ := look_does hl
  obtain rfl : c = false := (congrArg Prod.fst hl).symm.trans hopen
  rw [if_neg Bool.false_ne_true] at h
  obtain ⟨r, s₂, hg, h⟩ := run_bind_eq.1 h
  obtain ⟨rfl, rfl⟩ := Prod.mk.inj hg
  obtain ⟨_, s₂, hm, h⟩ := run_bind_eq.1 h
  obtain ⟨-, rfl⟩ := Prod.mk.inj hm
  obtain ⟨_, s₃, hn, h⟩ := run_bind_eq.1 h
  obtain ⟨t, s₄, ht, h⟩ := run_bind_eq.1 h
  obtain rfl := now_eq ht
  have hcounted : s₁.Does [] { s₁ with
      invocations := s₁.invocations.insert tool.name
        ((s₁.invocations.get? tool.name).getD 0 + 1) } := .of_eq rfl rfl rfl
  have hnoted := note_does hn (fun hc' => by simp [← hc] at hc') rfl rfl
  obtain ⟨hperformed, hends⟩ := perform_does h
  refine ⟨?_, hlook.uncancelled hc.symm, hends.interrupted⟩
  exact hlook.nil_trans (hcounted.nil_trans (hnoted.trans_nil hperformed))

/-- **The body of a tool is started, unless the run is cancelled before.** -/
theorem invoke_does {tool : Tool} {timeout : Duration} {args : Json} {n : Nat}
    {e : Ended (Except Failure Json)} (h : (x.invoke tool timeout args n).run s = (e, s')) :
    (s.HeldBack s' ∧ e = .interrupted) ∨
      (s.Does [.invoked tool.name args] s' ∧ s.clock.cancelled = false ∧
        (e = .interrupted → s'.clock.cancelled = true)) := by
  cases hc : s.clock.look.cancelled with
  | false => exact .inr (x.invoke_starts h hc)
  | true =>
    obtain ⟨c, s₁, hl, h⟩ := run_bind_eq.1 h
    obtain rfl : c = true := (congrArg Prod.fst hl).symm.trans hc
    obtain ⟨rfl, rfl⟩ := run_pure_eq.1 h
    exact .inl ⟨look_heldBack hl, rfl⟩

/-- What can be recorded of the body of the tool for a call. -/
inductive BodyDeeds (c : Call) : List Happening → Prop
  | unstarted : BodyDeeds c []
  | started {tool : Tool} {args : Json} (htool : x.registry.get? c.name = some tool) :
      BodyDeeds c [.invoked tool.name args]

theorem outcome_does {c : Call} {n : Nat} {r : Result} (h : (x.outcome c n).run s = (r, s')) :
    ∃ body, x.BodyDeeds c body ∧ s.Does body s' := by
  unfold outcome outcomeUnder at h
  split at h
  · obtain ⟨-, rfl⟩ := run_pure_eq.1 h
    exact ⟨[], .unstarted, .refl s⟩
  · rename_i tool htool
    simp only at h
    split at h
    · obtain ⟨e, s₁, hi, h⟩ := run_bind_eq.1 h
      obtain ⟨-, rfl⟩ := run_pure_eq.1 h
      rcases x.invoke_does hi with ⟨hheld, -⟩ | ⟨hdoes, -⟩
      · exact ⟨[], .unstarted, hheld.does⟩
      · exact ⟨_, .started htool, hdoes⟩
    · obtain ⟨-, rfl⟩ := run_pure_eq.1 h
      exact ⟨[], .unstarted, .refl s⟩

/-- **An attempt at a call is recorded under the name of the call.** -/
theorem execute_does {c : Call} {n : Nat} {r : Result} (h : (x.execute c n).run s = (r, s')) :
    ∃ body audit, x.BodyDeeds c body ∧ audit.tool = c.name ∧
      s.Does (body ++ [.audited audit]) s' := by
  obtain ⟨r₀, s₁, ms, ho, hn, -⟩ := x.execute_outcome h
  obtain ⟨body, hbody, hdoes⟩ := x.outcome_does ho
  exact ⟨body, _, hbody, rfl, hdoes.trans (note_does hn (fun _ => rfl) rfl rfl)⟩

end Executor

namespace Agent

variable {σ : Type} (a : Agent σ) (runId : String) {s s' : Session σ}

/-- What is done for a call: the body of the tool may be started, the result is recorded and told,
and the critic may be asked. -/
inductive CallDeeds (c : Call) : List Happening → Prop
  | mk {body asked : List Happening} {audit : Audit} {summary : String}
      (hbody : a.executor.BodyDeeds c body) (haudit : audit.tool = c.name)
      (hasked : asked = [] ∨ ∃ p, asked = [.criticAsked p]) :
      CallDeeds c
        (body ++ .audited audit :: .emitted (.toolCalled runId c.name summary) :: asked)

variable {runId}

theorem assess_does {critic : Critic} {goal : Goal} {o : Observation}
    {x : Except TurnFault Critique} (h : (a.assess critic goal o).run s = (x, s')) :
    ∃ asked, (asked = [] ∨ ∃ p, asked = [.criticAsked p]) ∧ s.Does asked s' ∧
      ∀ f, x = .error f → a.Shows f s' := by
  unfold assess at h
  split at h
  · obtain ⟨e, s₁, hask, h⟩ := run_bind_eq.1 h
    rcases a.askCritic_does hask with ⟨hheld, rfl⟩ | ⟨hdoes, -, m, hans, hret⟩
    · obtain ⟨rfl, rfl⟩ := run_pure_eq.1 h
      exact ⟨[], .inl rfl, hheld.does, nofun⟩
    · refine ⟨_, .inr ⟨critic.prompt goal o, rfl⟩, ?_⟩
      cases e with
      | returned answer =>
        obtain ⟨rfl, rfl⟩ := run_pure_eq.1 h
        exact ⟨hdoes, nofun⟩
      | panicked m =>
        obtain ⟨rfl, rfl⟩ := run_pure_eq.1 h
        exact ⟨hdoes, by rintro f ⟨⟩; exact ⟨nofun, nofun⟩⟩
      | interrupted =>
        obtain ⟨rfl, rfl⟩ := run_pure_eq.1 h
        exact ⟨hdoes, nofun⟩
      | expired => exact absurd rfl hans.expired
      | stalled =>
        obtain ⟨rfl, rfl⟩ := run_pure_eq.1 h
        exact ⟨hdoes, by rintro f ⟨⟩; exact hans.shows_stalled hret⟩
  · obtain ⟨rfl, rfl⟩ := run_pure_eq.1 h
    exact ⟨[], .inl rfl, .refl s, nofun⟩

theorem judge_does {goal : Goal} {o : Observation} {x : Except TurnFault (Option Critique)}
    (h : (a.judge goal o).run s = (x, s')) :
    ∃ asked, (asked = [] ∨ ∃ p, asked = [.criticAsked p]) ∧ s.Does asked s' ∧
      ∀ f, x = .error f → a.Shows f s' := by
  unfold judge at h
  split at h
  · obtain ⟨rfl, rfl⟩ := run_pure_eq.1 h
    exact ⟨[], .inl rfl, .refl s, nofun⟩
  · obtain ⟨y, s₁, hj, h⟩ := run_bind_eq.1 h
    obtain ⟨rfl, rfl⟩ := run_pure_eq.1 h
    obtain ⟨asked, hasked, hdoes, hf⟩ := a.assess_does hj
    refine ⟨asked, hasked, hdoes, ?_⟩
    rintro f hy
    cases y with
    | error g => exact hf f (congrArg Except.error (Except.error.inj hy))
    | ok c => cases hy

theorem call_does {c : Call} {n : Nat} {r : Result} (h : (a.call c n).run s = (r, s')) :
    ∃ body audit, a.executor.BodyDeeds c body ∧ audit.tool = c.name ∧
      s.Does (body ++ [.audited audit]) s' := by
  obtain ⟨r₀, s₁, hx, h⟩ := run_bind_eq.1 h
  obtain ⟨-, rfl⟩ := run_pure_eq.1 h
  exact a.executor.execute_does hx

/-- **A call is made, recorded, told and judged.** -/
theorem doCall_does {state : RunState} {action : Action} {c : Call} {n : Nat}
    {x : Except TurnFault TurnOutcome}
    (h : (a.doCall runId state action c n).run s = (x, s')) :
    ∃ ds, a.CallDeeds runId c ds ∧ s.Does ds s' ∧ ∀ f, x = .error f → a.Shows f s' := by
  obtain ⟨r, s₁, hr, h⟩ := run_bind_eq.1 h
  obtain ⟨_, s₂, he, h⟩ := run_bind_eq.1 h
  obtain ⟨y, s₃, hj, h⟩ := run_bind_eq.1 h
  obtain ⟨body, audit, hbody, haudit, hexecuted⟩ := a.call_does hr
  have htold := emit_does he fun _ => rfl
  obtain ⟨asked, hasked, hjudged, hf⟩ := a.judge_does hj
  let summary := (a.normalizer.observe c.name r.data r).summary
  refine ⟨body ++ .audited audit :: .emitted (.toolCalled runId c.name summary) :: asked,
    .mk hbody haudit hasked, ?_⟩
  have hdoes : s.Does (body ++ .audited audit :: .emitted (.toolCalled runId c.name summary) ::
      asked) s₃ := by
    have h₁ := (hexecuted.trans htold).trans hjudged
    simpa only [List.append_assoc, List.cons_append, List.nil_append] using h₁
  cases y with
  | error g =>
    obtain ⟨rfl, rfl⟩ := run_pure_eq.1 h
    exact ⟨hdoes, by rintro f ⟨⟩; exact hf g rfl⟩
  | ok critique =>
    obtain ⟨rfl, rfl⟩ := run_pure_eq.1 h
    exact ⟨hdoes, nofun⟩

/-! ### Actions -/

variable (runId)

/-- What is done for an action. -/
inductive ActionDeeds : Action → List Happening → Prop
  | call {c : Call} {n : Nat} {w : Duration} {ds : List Happening} (h : a.CallDeeds runId c ds) :
      ActionDeeds (.callTool c n w) ds
  | ask {q : String} {fields : List String} :
      ActionDeeds (.askUser q fields) [.emitted (.userInputRequested runId q fields)]
  | stop {r : String} : ActionDeeds (.stop r) []
  | replan {gs : List String} : ActionDeeds (.replan gs) []

variable {runId} {policy : FailurePolicy} {state : RunState}

/-- **What is done for an action depends on its kind.** -/
theorem act_does {action : Action} {o : TurnOutcome}
    (h : (a.act runId state action).run s = (.ok o, s')) :
    ∃ ds, a.ActionDeeds runId action ds ∧ s.Does ds s' := by
  cases action with
  | callTool c n w =>
    obtain ⟨_, s₁, hp, h⟩ := run_bind_ok h fun _ => rfl
    obtain ⟨ds, hds, hdoes, -⟩ := a.doCall_does h
    exact ⟨ds, .call hds, (pause_does hp).1.nil_trans hdoes⟩
  | askUser q fields =>
    obtain ⟨_, s₁, he, h⟩ := run_bind_eq.1 h
    obtain ⟨-, rfl⟩ := run_ok_eq.1 h
    exact ⟨_, .ask, emit_does he fun _ => rfl⟩
  | stop r =>
    obtain ⟨-, rfl⟩ := run_ok_eq.1 h
    exact ⟨[], .stop, .refl s⟩
  | replan gs =>
    obtain ⟨-, rfl⟩ := run_ok_eq.1 h
    exact ⟨[], .replan, .refl s⟩

/-- An action can fail only as a call: in the wait before it, or after it was made. -/
theorem act_fault_does {action : Action} {f : TurnFault}
    (h : (a.act runId state action).run s = (.error f, s')) :
    a.Shows f s' ∧ ((s.Does [] s' ∧ f = .cancelled) ∨
      ∃ c n w ds, action = .callTool c n w ∧ a.CallDeeds runId c ds ∧ s.Does ds s') := by
  cases action with
  | callTool c n w =>
    obtain ⟨x, s₁, hp, h⟩ := run_bind_eq.1 h
    obtain ⟨hpause, rfl | ⟨rfl, hc⟩⟩ := pause_does hp
    · obtain ⟨ds, hds, hdoes, hf⟩ := a.doCall_does h
      exact ⟨hf f rfl, .inr ⟨c, n, w, ds, rfl, hds, hpause.nil_trans hdoes⟩⟩
    · obtain ⟨hf, rfl⟩ := run_pure_eq.1 h
      obtain rfl := Except.error.inj hf
      exact ⟨⟨fun _ => hc, nofun⟩, .inl ⟨hpause, rfl⟩⟩
  | askUser q fields =>
    obtain ⟨_, s₁, -, h⟩ := run_bind_eq.1 h
    cases (run_pure_eq.1 h).1
  | stop r => cases (run_pure_eq.1 h).1
  | replan gs => cases (run_pure_eq.1 h).1

/-! ### Steps of the loop -/

/-- What is recorded of the storing of a state, if the outside is this one then. -/
def savedDeeds (store : Option (StateStore σ)) (runId : String) (state : RunState)
    (s' : Session σ) : List Happening :=
  if store.isSome && !s'.clock.cancelled then [.saved runId state] else []

theorem savedDeeds_eq (store : Option (StateStore σ)) (runId : String) (state : RunState)
    (s' : Session σ) : savedDeeds store runId state s' = [] ∨
      savedDeeds store runId state s' = [.saved runId state] := by
  unfold savedDeeds
  split
  · exact .inr rfl
  · exact .inl rfl

/-- Storing a state is tried unless the run is cancelled. -/
theorem save_does {store : Option (StateStore σ)} {e : Except StoreFault Unit}
    (h : (Outside.save store runId state).run s = (e, s')) :
    s.Does (savedDeeds store runId state s') s' := by
  cases store with
  | none =>
    obtain ⟨-, rfl⟩ := run_pure_eq.1 h
    exact .refl s
  | some st =>
    obtain ⟨c, s₁, hl, h⟩ := run_bind_eq.1 h
    obtain ⟨hlook, hc⟩ := look_does hl
    cases c with
    | true =>
      obtain ⟨-, rfl⟩ := run_pure_eq.1 h
      rwa [savedDeeds, ← hc]
    | false =>
      rw [if_neg Bool.false_ne_true] at h
      have hsaved := operate_does h rfl rfl rfl
      obtain ⟨-, rfl⟩ := Prod.mk.inj h
      rw [savedDeeds]
      change s.Does (if !s₁.clock.cancelled then _ else _) _
      rw [← hc]
      exact hlook.nil_trans hsaved

variable (runId state)

/-- The announcement of a turn and the question that follows it. -/
def opening : List Happening :=
  [.emitted (.turnStarted runId (state.turnIndex + 1)),
    .plannerAsked (a.planner.prompt a.executor.registry state)]

/-- What is done in a turn that is completed. -/
inductive TurnDeeds (action : Action) : List Happening → Prop
  | mk {ds saved : List Happening} {ms : Nat} (hds : a.ActionDeeds runId action ds)
      (hsaved : saved = [] ∨ ∃ next, saved = [.saved runId next]) :
      TurnDeeds action (a.opening runId state ++ ds ++
        .emitted (.turnCompleted runId (state.turnIndex + 1) ms action.kind) :: saved)

variable (policy) (s)

/-- What is done in a turn that fails. A signal can come before the model is asked for a decision;
after that the turn can break off anywhere up to the answer of the critic. -/
inductive FaultDeeds : TurnFault → List Happening → Prop
  | unasked (hsignal : s.clock.signal ≠ .never) :
      FaultDeeds .cancelled [.emitted (.turnStarted runId (state.turnIndex + 1))]
  | undone {f : TurnFault} : FaultDeeds f (a.opening runId state)
  | unjudged {f : TurnFault} {d : Decision} {c : Call} {n : Nat} {w : Duration}
      {ds : List Happening} (hd : a.decided runId state s = .ok d)
      (ha : a.resolve policy state d = .callTool c n w) (hds : a.CallDeeds runId c ds) :
      FaultDeeds f (a.opening runId state ++ ds)

variable {runId state policy s}

/-- The turn is announced, and then it is gone on with. -/
theorem step_announced {x : Except TurnFault TurnOutcome}
    (h : (a.step runId policy state).run s = (x, s')) (hs : s.clock.cancelled = false) :
    ∃ s₁, (Outside.emit (.turnStarted runId (state.turnIndex + 1))).run s = ((), s₁) ∧
      s.Does [.emitted (.turnStarted runId (state.turnIndex + 1))] s₁ ∧
      ∃ y s₂, (a.turn runId policy state).run s₁ = (y, s₂) ∧
        (∀ f, y = .error f → x = .error f ∧ s' = s₂) ∧
        ∀ o, y = .ok o → x = .ok o ∧ ∃ ms,
          s₂.Does (.emitted (.turnCompleted runId (state.turnIndex + 1) ms
            (lastActionKind o.next)) :: savedDeeds a.store runId o.next s') s' := by
  obtain ⟨_, s₁, he, h⟩ := run_bind_eq.1 h
  obtain ⟨started, s₂, hn, h⟩ := run_bind_eq.1 h
  obtain rfl := now_eq hn
  obtain ⟨y, s₂, ht, h⟩ := run_bind_eq.1 h
  refine ⟨s₁, he, emit_does he (by simp [hs]), y, s₂, ht, ?_, ?_⟩
  · rintro f rfl
    obtain ⟨rfl, rfl⟩ := run_pure_eq.1 h
    exact ⟨rfl, rfl⟩
  · rintro o rfl
    obtain ⟨ended, s₃, hn', h⟩ := run_bind_eq.1 h
    obtain rfl := now_eq hn'
    obtain ⟨_, s₄, he', h⟩ := run_bind_eq.1 h
    obtain ⟨_, s₅, hsave, h⟩ := run_bind_eq.1 h
    obtain ⟨rfl, rfl⟩ := run_pure_eq.1 h
    exact ⟨rfl, _, (emit_does he' fun _ => rfl).trans (save_does hsave)⟩

variable {a} in
/-- **In a completed turn its action is done**, after the opening and before the end is told and the
new state stored. -/
theorem CompletedTurn.acts (t : a.CompletedTurn runId policy) (hs : t.start.clock.cancelled = false) :
    ∃ s₁ s₂ ms, t.start.Does (a.opening runId t.before) s₁ ∧
      (a.act runId t.before t.action).run s₁ = (.ok t.outcome, s₂) ∧
      s₂.Does (.emitted (.turnCompleted runId (t.before.turnIndex + 1) ms t.action.kind) ::
        savedDeeds a.store runId t.next t.after) t.after := by
  obtain ⟨s₁, he, hstarted, y, s₂, ht, herror, hok⟩ := a.step_announced t.completes hs
  cases y with
  | error f => cases (herror f rfl).1
  | ok o =>
    obtain ⟨ho, ms, hrest⟩ := hok o rfl
    obtain rfl := Except.ok.inj ho
    obtain ⟨d, s₃, hd, ha⟩ := run_bind_ok ht fun _ => rfl
    -- a turn is a function of its outside, so that it has decided what it is known for
    have hdec : t.decision = d := by
      have h := t.decides
      rw [decided, run_bind, he, hd] at h
      exact (Except.ok.inj h).symm
    subst hdec
    have hkind : lastActionKind t.outcome.next = t.action.kind := by
      rw [lastActionKind, show t.outcome.next.lastAction = _ from t.next_lastAction]
      rfl
    rw [hkind] at hrest
    rcases a.decide_does hd with ⟨-, hno⟩ | ⟨hasked, -, -⟩
    · cases hno
    · exact ⟨s₃, s₂, ms, hstarted.trans hasked, ha, hrest⟩

variable {a} in
/-- **What is done in a completed turn**, and the state that is stored at its end. -/
theorem CompletedTurn.does_saving (t : a.CompletedTurn runId policy)
    (hs : t.start.clock.cancelled = false) :
    ∃ ds ms, a.ActionDeeds runId t.action ds ∧
      t.start.Does (a.opening runId t.before ++ ds ++
        .emitted (.turnCompleted runId (t.before.turnIndex + 1) ms t.action.kind) ::
          savedDeeds a.store runId t.next t.after) t.after := by
  obtain ⟨s₁, s₂, ms, hopening, hact, hrest⟩ := t.acts hs
  obtain ⟨ds, hds, hacted⟩ := a.act_does hact
  exact ⟨ds, ms, hds, (hopening.trans hacted).trans hrest⟩

variable {a} in
/-- What is done in a completed turn. -/
theorem CompletedTurn.does (t : a.CompletedTurn runId policy)
    (hs : t.start.clock.cancelled = false) :
    ∃ ds, a.TurnDeeds runId t.before t.action ds ∧ t.start.Does ds t.after := by
  obtain ⟨ds, ms, hds, hdoes⟩ := t.does_saving hs
  exact ⟨_, .mk hds ((savedDeeds_eq ..).imp_right fun h => ⟨_, h⟩), hdoes⟩

/-- **What is done in a turn that fails.** -/
theorem step_fault_does {f : TurnFault}
    (h : (a.step runId policy state).run s = (.error f, s')) (hs : s.clock.cancelled = false) :
    a.Shows f s' ∧ ∃ ds, a.FaultDeeds runId s policy state f ds ∧ s.Does ds s' := by
  obtain ⟨s₁, he, hstarted, y, s₂, ht, herror, hok⟩ := a.step_announced h hs
  cases y with
  | ok o => cases (hok o rfl).1
  | error g =>
    obtain ⟨hg, rfl⟩ := herror g rfl
    obtain rfl := Except.error.inj hg
    obtain ⟨x, s₃, hd, ht⟩ := run_bind_eq.1 ht
    cases x with
    | error g =>
      obtain ⟨hg, rfl⟩ := run_pure_eq.1 ht
      obtain rfl := Except.error.inj hg
      rcases a.decide_does hd with ⟨hheld, hx⟩ | ⟨hasked, -, hshows⟩
      · obtain rfl := Except.error.inj hx
        have hsignal : s.clock.signal ≠ .never := by
          rcases hheld.signalled with hc | hn
          · rw [emit_cancelled he, hs] at hc
            cases hc
          · rwa [hstarted.signal] at hn
        exact ⟨⟨fun _ => hheld.cancelled, nofun⟩, _, .unasked hsignal,
          hstarted.trans_nil hheld.does⟩
      · exact ⟨hshows _ rfl, _, .undone, hstarted.trans hasked⟩
    | ok d =>
      have hdec : a.decided runId state s = .ok d := by rw [decided, run_bind, he, hd]
      rcases a.decide_does hd with ⟨-, hno⟩ | ⟨hasked, -, -⟩
      · cases hno
      have hopening := hstarted.trans hasked
      obtain ⟨hshows, ⟨hpause, rfl⟩ | ⟨c, n, w, ds, ha, hds, hdoes⟩⟩ := a.act_fault_does ht
      · exact ⟨hshows, _, .undone, hopening.trans_nil hpause⟩
      · exact ⟨hshows, _, .unjudged hdec ha hds, hopening.trans hdoes⟩

end Agent

end Conductor

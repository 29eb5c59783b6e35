import Conductor.Proofs.Run.Course

/-!
# Two runs side by side

Two agents are compared by a relation between their outsides. If they agree in each single thing
that they do to the outside, in the prompts they send and in how they resolve decisions, then they
agree turn by turn, and their runs take the same course.

* `Outside.Follows`, `Outside.Agrees` : two computations give related values, or the same value,
  from related outsides, and leave related outsides;
* `Agent.Parallel` : what two agents must have in common;
* `Parallel.step` : **parallel agents agree in every turn;**
* `Parallel.course` : **the one takes the course of the other;**
* `Parallel.run_eq` : from the same outside parallel agents have the same runs.
-/

namespace Conductor

/-! ### Computations side by side -/

namespace Outside

variable {σ τ α β γ δ : Type} {Q : Session σ → Session τ → Prop}

/-- From related outsides the two computations give related values, and leave related outsides. -/
def Follows (Q : Session σ → Session τ → Prop) (R : α → β → Prop) (m : Outside σ α)
    (m' : Outside τ β) : Prop :=
  ∀ s r, Q s r → R (m.run s).1 (m'.run r).1 ∧ Q (m.run s).2 (m'.run r).2

/-- From related outsides the two computations give the same, and leave related outsides. -/
abbrev Agrees (Q : Session σ → Session τ → Prop) (m : Outside σ α) (m' : Outside τ α) : Prop :=
  Follows Q Eq m m'

theorem Follows.pure {R : α → β → Prop} {a : α} {b : β} (h : R a b) :
    Follows Q R (Pure.pure a) (Pure.pure b) := fun _ _ hQ => ⟨h, hQ⟩

theorem Follows.bind {R : α → β → Prop} {R' : γ → δ → Prop} {m : Outside σ α} {m' : Outside τ β}
    {f : α → Outside σ γ} {f' : β → Outside τ δ} (hm : Follows Q R m m')
    (hf : ∀ a b, R a b → Follows Q R' (f a) (f' b)) : Follows Q R' (m >>= f) (m' >>= f') := by
  intro s r hQ
  obtain ⟨hR, hQ₁⟩ := hm s r hQ
  exact hf _ _ hR _ _ hQ₁

theorem Agrees.pure (a : α) : Agrees Q (Pure.pure a) (Pure.pure a) := Follows.pure rfl

theorem Agrees.bind {R : β → γ → Prop} {m : Outside σ α} {m' : Outside τ α}
    {f : α → Outside σ β} {f' : α → Outside τ γ} (hm : Agrees Q m m')
    (hf : ∀ a, Follows Q R (f a) (f' a)) : Follows Q R (m >>= f) (m' >>= f') :=
  Follows.bind hm fun a _ h => h ▸ hf a

theorem Agrees.of_eq {m m' : Outside σ α} (h : m = m') : Agrees Eq m m' := by
  rintro s _ rfl
  rw [h]
  exact ⟨rfl, rfl⟩

theorem Follows.get : Follows Q Q (MonadState.get : Outside σ _) (MonadState.get : Outside τ _) :=
  fun _ _ hQ => ⟨hQ, hQ⟩

theorem Follows.of_modify {f : Session σ → Session σ} {f' : Session τ → Session τ}
    (h : ∀ s r, Q s r → Q (f s) (f' r)) :
    Agrees Q (modify f : Outside σ PUnit) (modify f' : Outside τ PUnit) :=
  fun s r hQ => ⟨rfl, h s r hQ⟩

/-- The second computation gives what the first one has given. -/
theorem Agrees.run_eq {m : Outside σ α} {m' : Outside τ α} (h : Agrees Q m m') {s s' : Session σ}
    {r : Session τ} (hQ : Q s r) {a : α} (hm : m.run s = (a, s')) :
    ∃ r', m'.run r = (a, r') ∧ Q s' r' := by
  obtain ⟨ha, hQ'⟩ := h s r hQ
  rw [hm] at ha hQ'
  exact ⟨_, Prod.ext ha.symm rfl, hQ'⟩

end Outside

namespace Agent

open Outside

/-! ### Agents side by side -/

/-- Two agents have in common what a run is made of, as far as related outsides show it. The clock
of the second may be behind. -/
structure Parallel {σ τ : Type} (lag : Nat) (Q : Session σ → Session τ → Prop) (a : Agent σ)
    (a' : Agent τ) : Prop where
  now : ∀ s r, Q s r → s.clock.now = lag + r.clock.now
  note : ∀ h, Agrees Q (note h) (note h)
  emit : ∀ e, Agrees Q (emit e) (emit e)
  look : Agrees Q look look
  perform : ∀ {α : Type} (deadline : Option Nat) (x : Activity α),
    Agrees Q (perform (deadline.map (lag + ·)) x) (perform deadline x)
  prompt : ∀ state,
    a.planner.prompt a.executor.registry state = a'.planner.prompt a'.executor.registry state
  resolve : ∀ policy state d, a.resolve policy state d = a'.resolve policy state d
  askPlanner : ∀ p, Agrees Q (a.askPlanner p) (a'.askPlanner p)
  askCritic : ∀ p, Agrees Q (a.askCritic p) (a'.askCritic p)
  critic : a.critic = a'.critic
  outcome : ∀ c n, Agrees Q (a.executor.outcome c n) (a'.executor.outcome c n)
  repair : ∀ r, a.executor.repair? r = a'.executor.repair? r
  repairsOutput : a.repairsOutput = a'.repairsOutput
  normalizer : a.normalizer = a'.normalizer
  digestLimits : a.digestLimits = a'.digestLimits
  /-- The fault of a store is of no consequence, and need not be the same. -/
  save : ∀ runId state, Follows Q (fun _ _ => True) (save a.store runId state)
    (save a'.store runId state)

namespace Parallel

variable {σ τ : Type} {lag : Nat} {Q : Session σ → Session τ → Prop} {a : Agent σ} {a' : Agent τ}
  (h : Parallel lag Q a a')

include h

theorem readNow : Follows Q (fun t t' => t = lag + t') Outside.now Outside.now :=
  fun s r hQ => ⟨h.now s r hQ, hQ⟩

theorem attempt {α : Type} (x : Activity α) : Agrees Q (Outside.attempt x) (Outside.attempt x) :=
  Agrees.bind h.look fun c => by
    cases c
    · exact h.perform none x
    · exact Agrees.pure _

theorem decide (state : RunState) : Agrees Q (a.decide state) (a'.decide state) := by
  unfold Agent.decide
  rw [h.prompt]
  refine Agrees.bind (h.askPlanner _) fun e => ?_
  split <;> exact Agrees.pure _

theorem pause (wait : Duration) :
    Agrees Q (Agent.pause wait : Outside σ _) (Agent.pause wait : Outside τ _) := by
  unfold Agent.pause
  split
  · exact Agrees.pure _
  · refine Agrees.bind (h.attempt _) fun e => ?_
    split <;> exact Agrees.pure _

theorem execute (c : Call) (n : Nat) :
    Agrees Q (a.executor.execute c n) (a'.executor.execute c n) := by
  refine Follows.bind h.readNow fun t t' ht => ?_
  refine Agrees.bind (h.outcome c n) fun r => ?_
  refine Follows.bind h.readNow fun u u' hu => ?_
  -- both clocks have moved by the same time
  have hms : u - t = u' - t' := by omega
  simp only [hms]
  exact Agrees.bind (h.note _) fun _ => Agrees.pure _

theorem call (c : Call) (n : Nat) : Agrees Q (a.call c n) (a'.call c n) := by
  unfold Agent.call
  refine Agrees.bind (h.execute c n) fun r => ?_
  rw [h.repairsOutput, h.repair]
  exact Agrees.pure _

theorem assess (critic : Critic) (goal : Goal) (o : Observation) :
    Agrees Q (a.assess critic goal o) (a'.assess critic goal o) := by
  unfold Agent.assess
  split
  · refine Agrees.bind (h.askCritic _) fun e => ?_
    split <;> exact Agrees.pure _
  · exact Agrees.pure _

theorem judge (goal : Goal) (o : Observation) : Agrees Q (a.judge goal o) (a'.judge goal o) := by
  unfold Agent.judge
  rw [h.critic]
  split
  · exact Agrees.pure _
  · exact Agrees.bind (h.assess _ goal o) fun e => Agrees.pure _

theorem next (state : RunState) (action : Action) (o : Option Observation) (c : Option Critique) :
    a.next state action o c = a'.next state action o c := by
  unfold Agent.next
  rw [h.digestLimits]

theorem doCall (runId : String) (state : RunState) (action : Action) (c : Call) (n : Nat) :
    Agrees Q (a.doCall runId state action c n) (a'.doCall runId state action c n) := by
  refine Agrees.bind (h.call c n) fun r => ?_
  rw [h.normalizer]
  refine Agrees.bind (h.emit _) fun _ => Agrees.bind (h.judge _ _) fun e => ?_
  cases e with
  | error f => exact Agrees.pure _
  | ok critique => exact Follows.pure (by rw [h.next])

theorem act (runId : String) (state : RunState) (action : Action) :
    Agrees Q (a.act runId state action) (a'.act runId state action) := by
  cases action with
  | callTool c n wait =>
    refine Agrees.bind (h.pause wait) fun e => ?_
    cases e with
    | error f => exact Agrees.pure _
    | ok _ => exact h.doCall runId state _ c n
  | askUser q fields =>
    exact Agrees.bind (h.emit _) fun _ => Follows.pure (by rw [h.next])
  | stop r => exact Follows.pure (by rw [h.next])
  | replan gs => exact Follows.pure (by rw [h.next])

theorem turn (runId : String) (policy : FailurePolicy) (state : RunState) :
    Agrees Q (a.turn runId policy state) (a'.turn runId policy state) := by
  refine Agrees.bind (h.decide state) fun e => ?_
  cases e with
  | error f => exact Agrees.pure _
  | ok d =>
    simp only [h.resolve]
    exact h.act runId state _

/-- **Parallel agents agree in every step of the loop.** -/
theorem step (runId : String) (policy : FailurePolicy) (state : RunState) :
    Agrees Q (a.step runId policy state) (a'.step runId policy state) := by
  refine Agrees.bind (h.emit _) fun _ => ?_
  refine Follows.bind h.readNow fun t t' ht => ?_
  refine Agrees.bind (h.turn runId policy state) fun e => ?_
  cases e with
  | error f => exact Agrees.pure _
  | ok o =>
    refine Follows.bind h.readNow fun u u' hu => ?_
    have hms : u - t = u' - t' := by omega
    simp only [hms]
    exact Agrees.bind (h.emit _) fun _ => Follows.bind (h.save _ _) fun _ _ _ => Agrees.pure _

variable {runId : String} {policy : FailurePolicy}

/-- **A parallel agent takes the course of the other**, as long as both look at the budget alike. -/
theorem course {b : Budget}
    (hhalt : ∀ left state, state.budget = b → Agrees Q (a.halt? left state) (a'.halt? left state))
    {left : Nat} {state final : RunState} {s s' : Session σ} {v : Option Verdict}
    {turns : List (a.CompletedTurn runId policy)}
    (hc : a.Course runId policy left state s turns v final s') (hb : state.budget = b)
    {r : Session τ} (hQ : Q s r) :
    ∃ r', (a'.loop runId policy left state).run r = ((v, final), r') ∧ Q s' r' := by
  induction hc generalizing r with
  | @halted left state s s' reason halt =>
    obtain ⟨r', hr, hQ'⟩ := (hhalt left state hb).run_eq hQ halt
    exact ⟨r', loop_of_halt hr, hQ'⟩
  | @failed left state s s₁ s' f halt step =>
    obtain ⟨r₁, hr₁, hQ₁⟩ := (hhalt _ state hb).run_eq hQ halt
    obtain ⟨r', hr', hQ'⟩ := (h.step runId policy state).run_eq hQ₁ step
    exact ⟨r', loop_of_fault hr₁ hr', hQ'⟩
  | @ended left s t v halt hv =>
    obtain ⟨r₁, hr₁, hQ₁⟩ := (hhalt _ t.before hb).run_eq hQ halt
    obtain ⟨r', hr', hQ'⟩ := (h.step runId policy t.before).run_eq hQ₁ t.completes
    exact ⟨r', loop_of_verdict hr₁ hr' hv, hQ'⟩
  | @goesOn left s s' t turns v final halt hv rest ih =>
    obtain ⟨r₁, hr₁, hQ₁⟩ := (hhalt _ t.before hb).run_eq hQ halt
    obtain ⟨r', hr', hQ'⟩ := (h.step runId policy t.before).run_eq hQ₁ t.completes
    obtain ⟨r'', hr'', hQ''⟩ := ih (t.next_budget.trans hb) hQ'
    exact ⟨r'', (loop_of_next hr₁ hr' hv).trans hr'', hQ''⟩

end Parallel

/-- **Parallel agents have the same runs from the same outside**, if they have the same store and the
time passes alike. -/
theorem Parallel.run_eq {σ : Type} {a a' : Agent σ} (h : Parallel 0 Eq a a')
    (hstore : a.store = a'.store) (helapsed : a.elapsed = a'.elapsed) (runId : String) (goal : Goal)
    (budget : Budget) (policy : FailurePolicy) (s : Session σ) :
    (a.run runId goal budget policy).run s = (a'.run runId goal budget policy).run s := by
  obtain ⟨first, s₁, v, final, s₂, hb, hc, hrun⟩ := a.run_course runId policy goal budget s
  have hb' : (a'.begin_ runId goal budget).run s = (first, s₁) := by
    rw [← hb, begin_, begin_, hstore]
  have hhalt (left : Nat) (state : RunState) :
      Agrees Eq (a.halt? left state) (a'.halt? left state) :=
    Agrees.of_eq (by rw [halt?, halt?, readElapsed, readElapsed, helapsed])
  obtain ⟨_, hl, rfl⟩ := h.course (fun left state _ => hhalt left state) hc rfl rfl
  rw [hrun, run, Outside.run_bind, hb', Outside.run_bind, hl]
  cases v with
  | none => rfl
  | some v =>
    simp only [closed, hstore]
    rfl

end Agent

end Conductor

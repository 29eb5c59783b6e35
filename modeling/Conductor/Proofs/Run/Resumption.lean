import Conductor.Proofs.Activity
import Conductor.Proofs.Run.Parallel
import Conductor.Proofs.Run.Remainder

/-!
# Runs that are taken up again

A run is broken off after a turn, and a second run finds the state that this turn has stored. Its
agent is what is left of the first one, and its outside is new. The two runs go on side by side.

* `Session.Resumes` : the outside of the first run has what it had at the break, and then what the
  second one has;
* `Agent.remainder_parallel` : **what is left of an agent does what the agent does;**
* `Agent.resumption` : **the second run ends like the first one, and tells the rest of its
  events.**
-/

namespace Conductor

open Outside

/-! ### The outsides of the two runs -/

/-- What has happened in an outside is what had happened at the break, and then what has happened
in the outside of the second run. No signal will come in either. -/
structure Session.Resumes {σ : Type} (k s r : Session σ) : Prop where
  clock : s.clock.Lags k.clock.now r.clock
  plannerCalls : s.plannerCalls = k.plannerCalls + r.plannerCalls
  criticCalls : s.criticCalls = k.criticCalls + r.criticCalls
  invoked : ∀ name, s.invoked name = k.invoked name + r.invoked name
  events : s.events = k.events ++ r.events

namespace Session

variable {σ : Type} (s : Session σ)

theorem events_note (h : Happening) :
    ({ s with trace := s.trace ++ [h] } : Session σ).events = s.events ++ h.event?.toList := by
  unfold events
  rw [List.filterMap_append]
  cases he : h.event? <;> simp [he]

theorem invoked_insert (name name' : String) (n : Nat) :
    ({ s with invocations := s.invocations.insert name n } : Session σ).invoked name' =
      if name' = name then n else s.invoked name' := by
  unfold invoked
  split
  · rename_i h
    rw [h, Keyed.get?_insert_self, Option.getD_some]
  · rename_i h
    rw [Keyed.get?_insert_of_ne _ h]

end Session

namespace Session.Resumes

variable {σ : Type} {k : Session σ}

/-- Every outside without a signal goes on from one in which nothing has happened. -/
theorem refl {s : Session σ} (h : s.clock.signal = .never) :
    Resumes (.start (.start false .never) [] s.store) s s where
  clock := ⟨(Nat.zero_add _).symm, rfl, h, h⟩
  plannerCalls := (Nat.zero_add _).symm
  criticCalls := (Nat.zero_add _).symm
  invoked _ := (Nat.zero_add _).symm
  events := rfl

theorem note (h : Happening) : Agrees (Resumes k) (Outside.note h) (Outside.note h) :=
  Follows.of_modify fun s r hQ =>
    { hQ with events := by rw [events_note, events_note, hQ.events, List.append_assoc] }

theorem emit (e : Event) : Agrees (Resumes k) (Outside.emit e) (Outside.emit e) :=
  Agrees.bind (note _) fun _ => Follows.of_modify fun _ _ hQ => { hQ with }

theorem withClock {s r : Session σ} {c c' : Clock} (hQ : Resumes k s r)
    (hc : c.Lags k.clock.now c') : Resumes k (s.withClock c) (r.withClock c') :=
  { hQ with
    clock := hc
    events := by rw [events_withClock, events_withClock, hQ.events] }

theorem look : Agrees (Resumes k) Outside.look Outside.look := fun _ _ hQ =>
  ⟨hQ.clock.look.cancelled, hQ.withClock hQ.clock.look⟩

theorem perform {α : Type} (deadline : Option Nat) (x : Activity α) :
    Agrees (Resumes k) (Outside.perform (deadline.map (k.clock.now + ·)) x)
      (Outside.perform deadline x) := by
  intro s r hQ
  obtain ⟨he, hc⟩ := x.run_lags deadline hQ.clock
  exact ⟨he, hQ.withClock hc⟩

theorem attempt {α : Type} (x : Activity α) :
    Agrees (Resumes k) (Outside.attempt x) (Outside.attempt x) :=
  Agrees.bind look fun c => by
    cases c
    · exact perform none x
    · exact Agrees.pure _

/-- Storing a state is no event, and nothing that follows depends on it. -/
theorem save (store : Option (StateStore σ)) (runId : String) (state : RunState) :
    Follows (Resumes k) (fun _ _ => True) (Outside.save store runId state)
      (Outside.save store runId state) := by
  cases store with
  | none => exact Follows.pure trivial
  | some st =>
    refine Agrees.bind look fun c => ?_
    cases c with
    | true => exact Follows.pure trivial
    | false => exact Agrees.bind (note _) fun _ s r hQ => ⟨trivial, { hQ with }⟩

/-! ### Models and tools -/

/-- What is left of a model gives the answers that the model goes on with. -/
theorem request (m : Model) {n : Nat} {counted : Session σ → Nat} {count : Session σ → Session σ}
    (hcounted : ∀ s r, Resumes k s r → counted s = n + counted r)
    (hcount : ∀ s r, Resumes k s r → Resumes k (count s) (count r)) (h : Prompt → Happening)
    (p : Prompt) :
    Agrees (Resumes k) (Agent.request m counted count h p)
      (Agent.request (m.after n) counted count h p) := by
  refine Follows.bind Follows.get fun s r hQ => ?_
  have hm : m (counted s) p = m.after n (counted r) p := by rw [hcounted s r hQ, Model.after]
  rw [hm]
  refine Agrees.bind (attempt _) fun e => ?_
  cases e with
  | returned _ =>
    exact Agrees.bind (Follows.of_modify hcount) fun _ => Agrees.bind (note _) fun _ =>
      perform none _
  | panicked | interrupted | expired | stalled => exact Agrees.pure _

theorem request_planner (m : Model) (h : Prompt → Happening) (p : Prompt) :
    Agrees (Resumes k)
      (Agent.request m (·.plannerCalls)
        (fun s => { s with plannerCalls := s.plannerCalls + 1 }) h p)
      (Agent.request (m.after k.plannerCalls) (·.plannerCalls)
        (fun s => { s with plannerCalls := s.plannerCalls + 1 }) h p) := by
  refine request m (fun _ _ hQ => hQ.plannerCalls) (fun s r hQ => ?_) h p
  exact { hQ with plannerCalls := congrArg (· + 1) hQ.plannerCalls }

theorem request_critic (m : Model) (h : Prompt → Happening) (p : Prompt) :
    Agrees (Resumes k)
      (Agent.request m (·.criticCalls)
        (fun s => { s with criticCalls := s.criticCalls + 1 }) h p)
      (Agent.request (m.after k.criticCalls) (·.criticCalls)
        (fun s => { s with criticCalls := s.criticCalls + 1 }) h p) := by
  refine request m (fun _ _ hQ => hQ.criticCalls) (fun s r hQ => ?_) h p
  exact { hQ with criticCalls := congrArg (· + 1) hQ.criticCalls }

/-- An invocation is counted in both outsides. -/
theorem count {s₀ r₀ : Session σ} (h₀ : Resumes k s₀ r₀) (name : String) :
    Agrees (Resumes k)
      (modify fun s => { s with invocations := s.invocations.insert name (s₀.invoked name + 1) })
      (modify fun r => { r with invocations := r.invocations.insert name (r₀.invoked name + 1) }) :=
  Follows.of_modify fun s r hQ => { hQ with
    invoked := fun name' => by
      rw [invoked_insert, invoked_insert]
      split
      · rename_i h
        rw [h, h₀.invoked, Nat.add_assoc]
      · exact hQ.invoked name' }

/-- What is left of a tool does what the tool goes on with. The deadline is later by the time at
which the run was broken off. -/
theorem invoke {x x' : Executor} (hdir : x'.workingDir = x.workingDir) (henv : x'.env = x.env)
    (tool : Tool) (timeout : Duration) (args : Json) (n : Nat) :
    Agrees (Resumes k) (x.invoke tool timeout args n)
      (x'.invoke (tool.after (k.invoked tool.name)) timeout args n) := by
  refine Agrees.bind look fun c => ?_
  cases c with
  | true => exact Agrees.pure _
  | false =>
    refine Follows.bind Follows.get fun s r hQ => ?_
    have hi : s.invoked tool.name = k.invoked tool.name + r.invoked tool.name := hQ.invoked _
    refine Agrees.bind (count hQ tool.name) fun _ => Agrees.bind (note _) fun _ => ?_
    refine Follows.bind (R := fun t t' => t = k.clock.now + t')
      (fun s r hQ => ⟨hQ.clock.now, hQ⟩) fun t t' ht => ?_
    have hp := perform (k := k) (some (t' + timeout.millisUp))
      (tool.body (s.invoked tool.name) args ⟨x.workingDir, x.env, n⟩)
    rw [Option.map_some, ← Nat.add_assoc, ← ht, hi] at hp
    simp only [Tool.after, hdir, henv]
    unfold Session.invoked at hi hp ⊢
    rw [hi]
    exact hp

end Session.Resumes

/-- The budget is used up by turns alone as long as there is time. -/
theorem Budget.exhausted_of_lt {b : Budget} {elapsed : Duration} (h : elapsed < b.maxDuration)
    (n : Nat) : b.exhausted n elapsed = decide (b.maxTurns ≤ n) := by
  have hle : ¬ b.maxDuration ≤ elapsed := Nat.not_le.2 h
  rw [exhausted, decide_eq_false hle, Bool.or_false]

namespace Agent

variable {σ : Type} (a : Agent σ) {k : Session σ} (elapsed : Nat → Duration)

theorem remainder_outcome (c : Call) (n : Nat) :
    Agrees (Session.Resumes k) (a.executor.outcome c n)
      ((a.remainder k elapsed).executor.outcome c n) := by
  unfold Executor.outcome Executor.outcomeUnder
  simp only [remainder, Registry.get?_after]
  cases a.executor.registry.get? c.name with
  | none => exact Agrees.pure _
  | some tool =>
    simp only [Option.map_some, Tool.after]
    split
    · exact Agrees.bind (Session.Resumes.invoke rfl rfl tool _ _ n) fun _ => Agrees.pure _
    · exact Agrees.pure _

theorem remainder_askCritic (p : Prompt) :
    Agrees (Session.Resumes k) (a.askCritic p) ((a.remainder k elapsed).askCritic p) := by
  unfold askCritic
  rw [show (a.remainder k elapsed).criticModel = a.criticModel.map (Model.after · k.criticCalls)
    from rfl]
  cases a.criticModel with
  | none => exact Session.Resumes.request_planner a.model _ p
  | some m => exact Session.Resumes.request_critic m _ p

/-- **What is left of an agent does what the agent goes on with.** -/
theorem remainder_parallel :
    Parallel k.clock.now (Session.Resumes k) a (a.remainder k elapsed) where
  now _ _ hQ := hQ.clock.now
  note := Session.Resumes.note
  emit := Session.Resumes.emit
  look := Session.Resumes.look
  perform := Session.Resumes.perform
  prompt state := (a.remainder_prompt k elapsed state).symm
  resolve policy state d := (a.remainder_resolve k elapsed policy state d).symm
  askPlanner := Session.Resumes.request_planner a.model _
  askCritic := a.remainder_askCritic elapsed
  critic := rfl
  outcome := a.remainder_outcome elapsed
  repair r := (a.remainder_repair k elapsed r).symm
  repairsOutput := rfl
  normalizer := rfl
  digestLimits := rfl
  save := Session.Resumes.save _

/-- As long as there is time, both runs look at the budget alike. -/
theorem remainder_halt? {b : Budget} (htime : ∀ n, a.elapsed n < b.maxDuration)
    (htime' : ∀ n, elapsed n < b.maxDuration) (left : Nat) (state : RunState)
    (hb : state.budget = b) :
    Agrees (Session.Resumes k) (a.halt? left state) ((a.remainder k elapsed).halt? left state) := by
  unfold halt?
  refine Agrees.bind Session.Resumes.look fun c => ?_
  cases c with
  | true => exact Agrees.pure _
  | false =>
    refine Follows.bind (R := fun e e' => e < b.maxDuration ∧ e' < b.maxDuration)
      (fun s r hQ => ⟨⟨htime _, htime' _⟩, { hQ with }⟩) fun e e' he => ?_
    rw [hb, Budget.exhausted_of_lt he.1, Budget.exhausted_of_lt he.2]
    exact Agrees.pure _

/-! ### No signal will come -/

section Signal

variable {a} {runId : String} {policy : FailurePolicy}

theorem CompletedTurn.signal_after (t : a.CompletedTurn runId policy)
    (h : t.start.clock.signal = .never) : t.after.clock.signal = .never := by
  -- the turn goes on beside itself, from an outside in which nothing has happened before
  obtain ⟨-, hQ⟩ := (a.remainder_parallel a.elapsed).step runId policy t.before _ _ (.refl h)
  rw [t.completes] at hQ
  exact hQ.clock.never

theorem halt?_signal (left : Nat) (state : RunState) (s : Session σ) :
    ((a.halt? left state).run s).2.clock.signal = s.clock.signal := by
  unfold halt?
  rw [Outside.run_bind]
  split <;> rfl

theorem load_signal (store : Option (StateStore σ)) (runId : String) (s : Session σ) :
    ((Outside.load store runId).run s).2.clock.signal = s.clock.signal := by
  cases store with
  | none => rfl
  | some st =>
    unfold Outside.load
    rw [Outside.run_bind]
    split <;> rfl

theorem begin_signal (runId : String) (goal : Goal) (budget : Budget) (s : Session σ) :
    ((a.begin_ runId goal budget).run s).2.clock.signal = s.clock.signal := by
  unfold begin_
  rw [Outside.run_bind]
  split <;> exact load_signal a.store runId s

theorem Course.signal_after {left : Nat} {state final : RunState} {s s' : Session σ}
    {v : Option Verdict} {turns : List (a.CompletedTurn runId policy)}
    (h : a.Course runId policy left state s turns v final s') (hn : s.clock.signal = .never) :
    ∀ t ∈ turns, t.after.clock.signal = .never := by
  induction h with
  | halted | failed => simp
  | @ended left s t v halt hv =>
    have hstart := halt?_signal (a := a) (left + 1) t.before s
    rw [halt] at hstart
    simpa using t.signal_after (hstart.trans hn)
  | @goesOn left s s' t turns v final halt hv rest ih =>
    have hstart := halt?_signal (a := a) (left + 1) t.before s
    rw [halt] at hstart
    have ht := t.signal_after (hstart.trans hn)
    simpa using ⟨ht, ih ht⟩

end Signal

/-! ### What is stored -/

open StateStore (Table)

section Stored

variable {a : Agent Table} {runId : String} {policy : FailurePolicy}

/-- A state is in the memory after it was stored, unless the run is cancelled. -/
theorem get?_of_save {state : RunState} {e : Except StoreFault Unit} {s s' : Session Table}
    (h : (Outside.save (some .memory) runId state).run s = (e, s'))
    (hc : s'.clock.cancelled = false) : s'.store.get? runId = some state := by
  obtain ⟨c, s₁, hl, h⟩ := Outside.run_bind_eq.1 h
  obtain ⟨hlc, rfl⟩ := Prod.mk.inj hl
  cases c with
  | true =>
    obtain ⟨-, rfl⟩ := Outside.run_pure_eq.1 h
    exact absurd (hlc.symm.trans hc) (by simp)
  | false =>
    obtain ⟨-, rfl⟩ := Prod.mk.inj h
    exact Keyed.get?_insert_self _

/-- **The memory holds what a turn has left**, unless the run is cancelled. -/
theorem CompletedTurn.stored (t : a.CompletedTurn runId policy) (hstore : a.store = some .memory)
    (hc : t.after.clock.cancelled = false) : t.after.store.get? runId = some t.next := by
  obtain ⟨_, s₁, -, h⟩ := Outside.run_bind_eq.1 t.completes
  obtain ⟨_, s₂, -, h⟩ := Outside.run_bind_eq.1 h
  obtain ⟨o, s₃, -, h⟩ := Outside.run_bind_ok h fun _ => rfl
  obtain ⟨_, s₄, -, h⟩ := Outside.run_bind_eq.1 h
  obtain ⟨_, s₅, -, h⟩ := Outside.run_bind_eq.1 h
  obtain ⟨e, s₆, hs, h⟩ := Outside.run_bind_eq.1 h
  obtain ⟨ho, rfl⟩ := Outside.run_ok_eq.1 h
  rw [hstore] at hs
  rw [CompletedTurn.next, ← ho]
  exact get?_of_save hs hc

/-- A run begins in the state that its memory holds, and then nothing else has happened. -/
theorem begin_of_stored {k : Session Table} (hstore : a.store = some .memory)
    (hn : k.clock.signal = .never) (hc : k.clock.cancelled = false) {table : Table}
    {state : RunState} (htable : table.get? runId = some state) (goal : Goal) (budget : Budget)
    (subscribers : List Subscriber) :
    ∃ r, (a.begin_ runId goal budget).run (.start (.start false .never) subscribers table) =
      (state, r) ∧ k.Resumes k r := by
  obtain ⟨r, hload, hr⟩ : ∃ r, (Outside.load (some .memory) runId).run
      (.start (.start false .never) subscribers table) = (.ok (table.get? runId), r) ∧
        k.Resumes k r := by
    refine ⟨_, rfl, ?_⟩
    exact {
      clock := ⟨rfl, hc, hn, rfl⟩
      plannerCalls := rfl
      criticCalls := rfl
      invoked := fun _ => rfl
      events := (List.append_nil _).symm }
  refine ⟨r, ?_, hr⟩
  unfold begin_
  rw [hstore, Outside.run_bind, hload, htable]
  rfl

end Stored

/-! ### The second run -/

variable {a : Agent Table} {runId : String} {policy : FailurePolicy}

/-- **A run that was broken off can be taken up again**, if no signal comes and the time is never
used up. After a turn that has not ended the run, its state is in the memory. A run that finds this
state, with what is left of the agent and whatever goal and budget it is given, is told the same
end, and tells exactly those events that the first run tells after this turn. -/
theorem resumption {goal : Goal} {budget : Budget} {s : Session Table}
    {before after : List (a.CompletedTurn runId policy)} {t : a.CompletedTurn runId policy}
    {elapsed : Nat → Duration} {table : Table}
    (hstore : a.store = some .memory) (hsignal : s.clock.signal = .never)
    (hturns : a.turns runId goal budget policy s = before ++ t :: after)
    (hopen : t.verdict = none) (hcancelled : t.after.clock.cancelled = false)
    (htime : ∀ n, a.elapsed n < t.next.budget.maxDuration)
    (htime' : ∀ n, elapsed n < t.next.budget.maxDuration)
    (htable : table.get? runId = some t.next) (goal' : Goal) (budget' : Budget)
    (subscribers : List Subscriber) :
    t.after.store.get? runId = some t.next ∧
    ∃ told s' r',
      (a.run runId goal budget policy).run s = (told, s') ∧
      ((a.remainder t.after elapsed).run runId goal' budget' policy).run
        (.start (.start false .never) subscribers table) = (told, r') ∧
      s'.events = t.after.events ++ r'.events := by
  refine ⟨t.stored hstore hcancelled, ?_⟩
  obtain ⟨first, s₁, v, final, s₂, hb, hc, h⟩ := a.run_course runId policy goal budget s
  obtain ⟨first', r₁, v', final', r₂, hb', hc', h'⟩ := (a.remainder t.after elapsed).run_course
    runId policy goal' budget' (.start (.start false .never) subscribers table)
  rw [hturns] at hc
  have hs₁ : s₁.clock.signal = .never := by
    have hs := a.begin_signal runId goal budget s
    rw [hb] at hs
    exact hs.trans hsignal
  have hnever : t.after.clock.signal = .never := hc.signal_after hs₁ t (by simp)
  -- the second run begins where the turn ended
  obtain ⟨r, hr, hQ⟩ := begin_of_stored (a := a.remainder t.after elapsed) hstore hnever
    hcancelled htable goal' budget' subscribers
  obtain ⟨rfl, rfl⟩ := Prod.mk.inj (hb'.symm.trans hr)
  -- and goes on beside what is left of the first one
  obtain ⟨r', hloop, hQ'⟩ := (a.remainder_parallel elapsed).course
    (a.remainder_halt? elapsed htime htime') (hc.cut_remaining hopen) rfl hQ
  obtain ⟨he, rfl⟩ := Prod.mk.inj (hc'.loop_run.symm.trans hloop)
  obtain ⟨rfl, rfl⟩ := Prod.mk.inj he
  refine ⟨_, _, _, h, h', ?_⟩
  rw [closed_events, closed_events]
  exact hQ'.events

/-- Calls a tool that is busy at first, calls it again, and then stops. -/
def patient : Agent Table :=
  .rehearsed
    [.rehearsed "fetch" [.failure (.retryable "busy" false none), .output (.string "page")]]
    [.calls "fetch", .calls "fetch", .stops "Goal achieved"]

/-- Has only the second call and the stop before it. -/
def patientRest : Agent Table :=
  .rehearsed [.rehearsed "fetch" [.output (.string "page")]]
    [.calls "fetch", .stops "Goal achieved"]

theorem patient_remainder {k : Session Table} (hcalls : k.plannerCalls = 1)
    (hinvoked : k.invoked "fetch" = 1) : patient.remainder k (fun _ => .zero) = patientRest := by
  rw [patient, remainder_rehearsed, hcalls, List.map_cons, List.map_nil, Outcome.play_after]
  change rehearsed [.rehearsed "fetch" (Outcome.rest _ (k.invoked "fetch"))] _ = _
  rw [hinvoked]
  rfl

theorem patient_run :
    (∃ t ∈ patient.turns "run" .rehearsed .standard .standard .rehearsed,
      t.next.turnIndex = 1 ∧ t.next.budget = .standard ∧ t.verdict = none ∧
        t.after.clock.cancelled = false ∧ t.after.plannerCalls = 1 ∧
        t.after.invoked "fetch" = 1) ∧
    (((patient.run "run" .rehearsed .standard .standard).run .rehearsed).1.map
      Report.totalTurns) = some 3 := by decide +kernel

/-- Broken off after the failure, and taken up with another goal and no budget of its own. -/
theorem resumption_patient :
    ∃ t ∈ patient.turns "run" .rehearsed .standard .standard .rehearsed, t.next.turnIndex = 1 ∧
      t.after.store.get? "run" = some t.next ∧
      ∃ report s' r', report.totalTurns = 3 ∧
        (patient.run "run" .rehearsed .standard .standard).run .rehearsed = (some report, s') ∧
        (patientRest.run "run" ⟨"another", [], default⟩ ⟨0, .zero⟩ .standard).run
          (.start (.start false .never) [] t.after.store) = (some report, r') ∧
        s'.events = t.after.events ++ r'.events := by
  obtain ⟨⟨t, ht, hindex, hbudget, hopen, hcancelled, hcalls, hinvoked⟩, hturns⟩ := patient_run
  obtain ⟨before, after, hsplit⟩ := List.append_of_mem ht
  have htime : ∀ _ : Nat, Duration.zero < t.next.budget.maxDuration := fun _ =>
    hbudget ▸ (by decide : Duration.zero < Budget.standard.maxDuration)
  have hstored := t.stored rfl hcancelled
  obtain ⟨-, told, s', r', h, h', hevents⟩ := resumption rfl rfl hsplit hopen hcancelled
    htime htime hstored ⟨"another", [], default⟩ ⟨0, .zero⟩ []
  rw [patient_remainder hcalls hinvoked] at h'
  rw [h] at hturns
  obtain ⟨report, rfl, htotal⟩ := Option.map_eq_some_iff.1 hturns
  exact ⟨t, ht, hindex, hstored, report, s', r', htotal, h, h', hevents⟩

end Agent

end Conductor

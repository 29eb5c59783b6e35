import Conductor.Proofs.Run.Admission
import Conductor.Proofs.Run.Boundary

/-!
# Calls that lack parameters

A call that lacks a required parameter is refused before the body of its tool is started, and the
result says what is missing. If the same call is decided on again, the user is asked for just that,
or the run stops, as the policy has it; the call is never tried again, and no other tool stands in.

* `Executor.Incomplete`, `Result.Refuses` : calls that lack something, and the results of them;
* `FailurePolicy.afterRefusal`, `FailurePolicy.afterFailure_refused` : **what is done about a
  refusal;**
* `CompletedTurn.refused` : **a turn that makes such a call starts no body, and what is missing is
  observed;**
* `Chronicle.asked_again` : **if the call is decided on again, the run ends with that turn;**
* `Agent.missing_parameters` : all this of whole runs.
-/

namespace Conductor

open Outside Session

/-! ### Refusals -/

/-- The call was refused because these parameters are missing. -/
structure Result.Refuses (r : Result) (fields : List String) : Prop where
  failed : r.ok = false
  code : r.code = .invalidInput
  missing : r.missingFields = fields

/-- From the one outside to the other no body of a tool was started. -/
def Session.Bodiless {σ : Type} (s s' : Session σ) : Prop :=
  ∃ ds, s.Does ds s' ∧ ∀ name args, .invoked name args ∉ ds

theorem Session.Bodiless.trans {σ : Type} {s s₁ s' : Session σ} (h : s.Bodiless s₁)
    (h' : s₁.Bodiless s') : s.Bodiless s' := by
  obtain ⟨ds, hdoes, hno⟩ := h
  obtain ⟨ds', hdoes', hno'⟩ := h'
  refine ⟨ds ++ ds', hdoes.trans hdoes', fun name args hmem => ?_⟩
  exact (List.mem_append.1 hmem).elim (hno name args) (hno' name args)

namespace Executor

variable {σ : Type} {x : Executor} {c c' : Call} {tool : Tool} {n : Nat} {s s' : Session σ}

/-- The call is of an enabled tool, whose parameters have different names, and lacks one of them
that is required. -/
structure Incomplete (x : Executor) (c : Call) (tool : Tool) : Prop where
  enabled : x.registry.get? c.name = some tool
  names : (tool.parameters.map (·.name)).Nodup
  lacks : Parameter.missing tool.parameters c.args ≠ []

/-- An equal call lacks the same. -/
theorem Incomplete.of_same (h : x.Incomplete c tool) (hs : c'.same c = true) :
    x.Incomplete c' tool ∧
      Parameter.missing tool.parameters c'.args = Parameter.missing tool.parameters c.args := by
  have hmissing :=
    Parameter.missing_eq_of_same tool.parameters (Bool.and_eq_true_iff.1 hs).2
  exact ⟨⟨Call.name_eq_of_same hs ▸ h.enabled, h.names, hmissing ▸ h.lacks⟩, hmissing⟩

theorem execute_incomplete {r : Result} (h : x.Incomplete c tool)
    (hrun : (x.execute c n).run s = (r, s')) :
    s.Bodiless s' ∧ r.Refuses (Parameter.missing tool.parameters c.args) := by
  obtain ⟨⟨audit, hdoes⟩, hok, hcode, hmissing⟩ := x.execute_refused h.enabled h.names rfl hrun
    fun hadmits => h.lacks hadmits.missingRequired_eq_nil
  exact ⟨⟨_, hdoes, by simp⟩, hok, hcode, hmissing⟩

end Executor

/-! ### What is done about a refusal -/

namespace FailurePolicy

variable {p : FailurePolicy} {r : Registry} {c : Call} {failed : Result} {fields : List String}

variable (p c failed fields) in
/-- What is done about a refusal: the user is asked for what is missing, or the run stops. -/
def afterRefusal : Action :=
  if p.askUserWhenMissingFields then .askUser (questionFor c fields) fields
  else .stop (unrecoverable failed)

theorem afterRefusal_of_asks (h : p.askUserWhenMissingFields = true) :
    p.afterRefusal c failed fields = .askUser (questionFor c fields) fields := if_pos h

theorem afterRefusal_of_stops (h : p.askUserWhenMissingFields = false) :
    p.afterRefusal c failed fields = .stop (unrecoverable failed) :=
  if_neg (ne_of_eq_of_ne h Bool.false_ne_true)

theorem afterRefusal_not_isCall : ¬ (p.afterRefusal c failed fields).IsCall := by
  rintro ⟨_, _, _, hcall⟩
  cases hask : p.askUserWhenMissingFields with
  | true => cases (afterRefusal_of_asks hask).symm.trans hcall
  | false => cases (afterRefusal_of_stops hask).symm.trans hcall

/-- **After a refusal the call is neither tried again nor replaced by another one.** -/
theorem afterFailure_refused (h : failed.Refuses fields) (hfields : fields ≠ []) :
    p.afterFailure r c failed = p.afterRefusal c failed fields := by
  obtain ⟨-, hcode, rfl⟩ := h
  have hask : (!failed.missingFields.isEmpty) = true := by simpa using hfields
  rw [afterFailure, escalate, hcode, hask, Bool.and_true]
  rfl

end FailurePolicy

namespace Agent

variable {σ : Type} {a : Agent σ} {runId : String} {policy : FailurePolicy} {state : RunState}
  {c c' : Call} {tool : Tool} {n : Nat} {w : Duration} {s s' : Session σ}

variable (a policy) in
/-- **A decision for a call that was refused asks or stops.** -/
theorem resolve_refused {failed : Result} {fields : List String}
    (h : FailurePolicy.Failed c failed state.lastObservation) (hr : failed.Refuses fields)
    (hfields : fields ≠ []) :
    a.resolve policy state (.callTool c) = policy.afterRefusal c failed fields := by
  rcases FailurePolicy.resolve_call_cases policy a.executor.registry c state with
    ⟨hno, -⟩ | ⟨failed', h', hresolve⟩
  · exact absurd h (hno failed)
  · obtain ⟨rfl, -⟩ := h.unique h'
    rw [resolve, hresolve, FailurePolicy.afterFailure_refused hr hfields]

/-! ### Turns that make the call -/

theorem call_incomplete {r : Result} (h : a.executor.Incomplete c tool)
    (hrun : (a.call c n).run s = (r, s')) :
    s.Bodiless s' ∧ r.Refuses (Parameter.missing tool.parameters c.args) := by
  obtain ⟨r₀, s₁, hx, hrun⟩ := run_bind_eq.1 hrun
  obtain ⟨rfl, rfl⟩ := run_pure_eq.1 hrun
  obtain ⟨hbodiless, hrefuses⟩ := Executor.execute_incomplete h hx
  -- only an output can be repaired
  have hrepair : a.executor.repair? r₀ = none :=
    a.executor.repair?_of_code (by rw [hrefuses.code]; decide)
  rw [hrepair, Option.getD_none, ite_self]
  exact ⟨hbodiless, hrefuses⟩

theorem doCall_incomplete {action : Action} {o : TurnOutcome} (h : a.executor.Incomplete c tool)
    (hrun : (a.doCall runId state action c n).run s = (.ok o, s')) :
    s.Bodiless s' ∧ ∃ x, o.next.lastObservation = some x ∧ x.result.call = c ∧
      x.result.Refuses (Parameter.missing tool.parameters c.args) := by
  obtain ⟨r, s₁, hr, hrun⟩ := run_bind_eq.1 hrun
  obtain ⟨_, s₂, he, hrun⟩ := run_bind_eq.1 hrun
  obtain ⟨critique, s₃, hj, hrun⟩ := run_bind_ok hrun fun _ => rfl
  obtain ⟨rfl, rfl⟩ := run_ok_eq.1 hrun
  obtain ⟨hbodiless, hrefuses⟩ := call_incomplete h hr
  obtain ⟨asked, hasked, hjudged, -⟩ := a.judge_does hj
  have htold : s₁.Bodiless s₂ := ⟨_, emit_does he fun _ => rfl, by simp⟩
  have hcritic : s₂.Bodiless s₃ := ⟨asked, hjudged, by rcases hasked with rfl | ⟨p, rfl⟩ <;> simp⟩
  exact ⟨(hbodiless.trans htold).trans hcritic, _, rfl, (a.call_isFor hr).call, hrefuses⟩

namespace CompletedTurn

variable (t : a.CompletedTurn runId policy)

/-- **A turn that makes a call which lacks something starts no body**, and leaves the refusal. -/
theorem refused (h : a.executor.Incomplete c tool) (haction : t.action = .callTool c n w)
    (hs : t.start.clock.cancelled = false) :
    t.start.Bodiless t.after ∧ ∃ o, t.next.lastObservation = some o ∧ o.result.call = c ∧
      o.result.Refuses (Parameter.missing tool.parameters c.args) := by
  obtain ⟨s₁, s₂, ms, hopening, hact, hrest⟩ := t.acts hs
  rw [haction] at hact
  obtain ⟨_, s₃, hp, hact⟩ := run_bind_ok hact fun _ => rfl
  obtain ⟨hbodiless, hobserved⟩ := doCall_incomplete h hact
  have hopened : t.start.Bodiless s₁ := ⟨_, hopening, by simp [opening]⟩
  have hpaused : s₁.Bodiless s₃ := ⟨[], (pause_does hp).1, by simp⟩
  have hclosed : s₂.Bodiless t.after := by
    refine ⟨_, hrest, ?_⟩
    rcases savedDeeds_eq a.store runId t.next t.after with hsaved | hsaved <;> simp [hsaved]
  exact ⟨((hopened.trans hpaused).trans hbodiless).trans hclosed, hobserved⟩

/-- **After that a decision for the same call is given up.** -/
theorem resolve_again (h : a.executor.Incomplete c tool) (haction : t.action = .callTool c n w)
    (hs : t.start.clock.cancelled = false) (hsame : c'.same c = true) :
    ∃ failed, a.resolve policy t.next (.callTool c') =
      policy.afterRefusal c' failed (Parameter.missing tool.parameters c.args) := by
  obtain ⟨-, o, ho, hcall, hrefuses⟩ := t.refused h haction hs
  have hfailed : FailurePolicy.Failed c' o.result t.next.lastObservation :=
    ⟨o, ho, rfl, hrefuses.failed, by rw [hcall, Call.same_comm]; exact hsame⟩
  exact ⟨_, a.resolve_refused policy hfailed hrefuses h.lacks⟩

/-- A turn that makes no call starts no body. -/
theorem bodiless_of_not_call (haction : ¬ t.action.IsCall)
    (hs : t.start.clock.cancelled = false) : t.start.Bodiless t.after := by
  obtain ⟨ds, ms, hds, hdoes⟩ := t.does_saving hs
  refine ⟨_, hdoes, ?_⟩
  generalize t.action = action at hds haction
  have hsaved := savedDeeds_eq a.store runId t.next t.after
  cases hds with
  | call => exact absurd ⟨_, _, _, rfl⟩ haction
  | ask | stop | replan => rcases hsaved with hsaved | hsaved <;> simp [opening, hsaved]

end CompletedTurn

/-! ### The turn after it -/

variable (a runId state) in
/-- An action that is no call does not fail. -/
theorem act_ok_of_not_call {action : Action} (h : ¬ action.IsCall) (s : Session σ) :
    ∃ o s', (a.act runId state action).run s = (.ok o, s') := by
  cases action with
  | callTool => exact absurd ⟨_, _, _, rfl⟩ h
  | askUser | stop | replan => exact ⟨_, _, rfl⟩

/-- A turn that decides on anything but a call is completed. -/
theorem step_ok_of_not_call {d : Decision} (hd : a.decided runId state s = .ok d)
    (h : ¬ (a.resolve policy state d).IsCall) :
    ∃ o s', (a.step runId policy state).run s = (.ok o, s') := by
  let announced := ((Outside.emit (.turnStarted runId (state.turnIndex + 1))).run s).2
  rcases hdecide : (a.decide state).run announced with ⟨x, s₁⟩
  obtain rfl : x = .ok d := (congrArg Prod.fst hdecide).symm.trans hd
  obtain ⟨o, s₂, hact⟩ := a.act_ok_of_not_call runId state h s₁
  have hturn : (a.turn runId policy state).run announced = (.ok o, s₂) :=
    run_bind_eq.2 ⟨_, _, hdecide, hact⟩
  obtain ⟨s₃, -, hstep⟩ := step_of_turn hturn
  exact ⟨o, _, hstep⟩

/-- What is done about a refusal ends the run. -/
theorem Yields.verdict_of_refusal {o : TurnOutcome} {failed : Result} {fields : List String}
    (h : a.Yields state (policy.afterRefusal c failed fields) o) :
    ∃ v, o.verdict = some v ∧
      (policy.askUserWhenMissingFields = true → policy.afterRefusal c failed fields =
        .askUser (FailurePolicy.questionFor c fields) fields ∧
          v = ⟨.awaitingUser, false, stopUserInput⟩) ∧
      (policy.askUserWhenMissingFields = false →
        ∃ reason, policy.afterRefusal c failed fields = .stop reason ∧ v.phase = .stopped) := by
  cases hask : policy.askUserWhenMissingFields with
  | true =>
    rw [FailurePolicy.afterRefusal_of_asks hask] at h ⊢
    cases h
    exact ⟨_, rfl, fun _ => ⟨rfl, rfl⟩, nofun⟩
  | false =>
    rw [FailurePolicy.afterRefusal_of_stops hask] at h ⊢
    cases h
    exact ⟨_, rfl, nofun, fun _ => ⟨_, rfl, rfl⟩⟩

/-! ### Whole runs -/

/-- A run has ended with the second of these turns, which has decided on the call that the first one
has made, for these parameters are missing: it asks for them or stops, as the policy has it. No body
was started in either turn. -/
structure GivenUp (t u : a.CompletedTurn runId policy) (c : Call) (fields : List String)
    (report : Report) : Prop where
  refused : t.start.Bodiless t.after
  bodiless : u.start.Bodiless u.after
  state : report.state = u.next
  asks : policy.askUserWhenMissingFields = true →
    u.action = .askUser (FailurePolicy.questionFor c fields) fields ∧
      report.verdict = ⟨.awaitingUser, false, stopUserInput⟩
  stops : policy.askUserWhenMissingFields = false →
    ∃ reason, u.action = .stop reason ∧ report.verdict.phase = .stopped

namespace Chronicle

variable {goal : Goal} {budget : Budget} (ch : a.Chronicle runId goal budget policy s)

include ch

/-- **If a call that lacks something was made and is decided on again, the run ends with that
turn.** -/
theorem asked_again (h : a.executor.Incomplete c tool) {k : Nat} {t : a.CompletedTurn runId policy}
    (ht : (a.turns runId goal budget policy s)[k]? = some t) (hmade : t.action = .callTool c n w)
    {b : RunState × Session σ} (hb : (a.begun runId goal budget policy s)[k + 1]? = some b)
    (hagain : a.decided runId b.1 b.2 = .ok (.callTool c')) (hsame : c'.same c = true) :
    ∃ u report s', a.turns runId goal budget policy s =
        (a.turns runId goal budget policy s).take k ++ [t, u] ∧ (u.before, u.start) = b ∧
      (a.run runId goal budget policy).run s = (some report, s') ∧
      GivenUp t u c' (Parameter.missing tool.parameters c.args) report := by
  have hopen := (ch.started (List.mem_of_getElem? ht)).2
  have hbefore : b.1 = t.next := by
    rw [ch.begun_eq hb, List.take_add_one, ht]
    exact stateAfter_concat ..
  obtain ⟨failed, hresolve⟩ := t.resolve_again h hmade hopen hsame
  rw [← hbefore] at hresolve
  -- the next turn makes no call, so that it is completed, and it gives a verdict
  obtain ⟨o, s₁, hstep⟩ :=
    step_ok_of_not_call hagain (hresolve ▸ FailurePolicy.afterRefusal_not_isCall)
  obtain ⟨u, hu, rfl⟩ := ch.completed_of_begun hb hstep
  have humem := List.mem_of_getElem? hu
  have haction : u.action =
      policy.afterRefusal c' failed (Parameter.missing tool.parameters c.args) := by
    rw [CompletedTurn.action, Except.ok.inj (u.decides.symm.trans hagain)]
    exact hresolve
  obtain ⟨v, hv, hasks, hstops⟩ := (haction ▸ u.yields).verdict_of_refusal
  obtain ⟨s', hrun⟩ := ch.report_of_verdict humem hv
  have hbodiless : u.start.Bodiless u.after :=
    u.bodiless_of_not_call (haction ▸ FailurePolicy.afterRefusal_not_isCall) (ch.started humem).2
  rw [← haction] at hasks hstops
  exact ⟨u, _, s', ch.turns_eq_of_verdict ht hu hv, rfl, hrun, (t.refused h hmade hopen).1,
    hbodiless, rfl, hasks, hstops⟩

/-- In a run that began afresh, the failure of a call that lacks something is a refusal. -/
theorem refuses_of_failed (hfirst : ch.first.lastObservation = none)
    (h : a.executor.Incomplete c tool) {b : RunState × Session σ}
    (hb : b ∈ a.begun runId goal budget policy s) {failed : Result}
    (hfailed : FailurePolicy.Failed c failed b.1.lastObservation) :
    failed.Refuses (Parameter.missing tool.parameters c.args) := by
  obtain ⟨o, ho, rfl, -, hsame⟩ := hfailed
  obtain ⟨k, hk⟩ := List.mem_iff_getElem?.1 hb
  rw [ch.begun_eq hk] at ho
  rcases stateAfter_cases ch.first ((a.turns runId goal budget policy s).take k) with
    hstate | ⟨t, ht, hstate⟩
  · rw [hstate, hfirst] at ho
    cases ho
  · -- what is observed was left by the turn that has made the call
    rw [hstate] at ho
    obtain ⟨c₁, n, w, haction, hfor⟩ := t.yields.observed ho
    rw [hfor.call] at hsame
    obtain ⟨h₁, hmissing⟩ := h.of_same hsame
    obtain ⟨-, o', ho', -, hrefuses⟩ :=
      t.refused h₁ haction (ch.started (List.mem_of_mem_take ht)).2
    obtain rfl := Option.some.inj (ho.symm.trans ho')
    exact hmissing ▸ hrefuses

end Chronicle

/-- **The user is asked for the parameters that a call lacks.** In a run that began afresh, let a
turn make a call that lacks required parameters, and the next turn decide on the same call. Then no
body is started in either turn, and the run ends with the second one: with a question for just what
is missing, or with a stop, as the policy has it. Whatever else the policy allows, such a call is
made for the first time each time, and no other tool is called in its place. -/
theorem missing_parameters {goal : Goal} {budget : Budget}
    (hfresh : a.firstState runId goal budget s = .initial goal budget)
    (h : a.executor.Incomplete c tool) :
    Parameter.Lacks tool.parameters (Parameter.applyDefaults tool.parameters c.args)
      (Parameter.missing tool.parameters c.args) ∧
    (∀ k t n w b c', (a.turns runId goal budget policy s)[k]? = some t →
      t.action = .callTool c n w → (a.begun runId goal budget policy s)[k + 1]? = some b →
      a.decided runId b.1 b.2 = .ok (.callTool c') → c'.same c = true →
      ∃ u report s', a.turns runId goal budget policy s =
          (a.turns runId goal budget policy s).take k ++ [t, u] ∧ (u.before, u.start) = b ∧
        (a.run runId goal budget policy).run s = (some report, s') ∧
        GivenUp t u c' (Parameter.missing tool.parameters c.args) report) ∧
    ∀ b ∈ a.begun runId goal budget policy s, ∀ c', c'.same c = true →
      (a.resolve policy b.1 (.callTool c') = .first c' ∨
        (∃ q fields, a.resolve policy b.1 (.callTool c') = .askUser q fields) ∨
        ∃ reason, a.resolve policy b.1 (.callTool c') = .stop reason) ∧
      ∀ d n w, a.resolve policy b.1 d = .callTool c' n w → n = 1 := by
  obtain ⟨ch⟩ := a.exists_chronicle runId policy goal budget s
  have hfirst : ch.first.lastObservation = none := by
    rw [← ch.firstState_eq, hfresh]
    rfl
  refine ⟨Parameter.lacks_missingRequired .., fun k t n w b c' ht hmade hb hagain hsame =>
    ch.asked_again h ht hmade hb hagain hsame, fun b hb c' hsame => ?_⟩
  obtain ⟨h', -⟩ := h.of_same hsame
  constructor
  · rcases FailurePolicy.resolve_call_cases policy a.executor.registry c' b.1 with
      ⟨-, hresolve⟩ | ⟨failed, hfailed, -⟩
    · exact .inl hresolve
    · have hresolve := a.resolve_refused policy hfailed
        (ch.refuses_of_failed hfirst h' hb hfailed) h'.lacks
      cases hask : policy.askUserWhenMissingFields with
      | true => exact .inr (.inl ⟨_, _, hresolve.trans (FailurePolicy.afterRefusal_of_asks hask)⟩)
      | false => exact .inr (.inr ⟨_, hresolve.trans (FailurePolicy.afterRefusal_of_stops hask)⟩)
  · intro d n w hresolve
    rcases FailurePolicy.resolve_eq_callTool hresolve with
      ⟨rfl, -⟩ | ⟨failed, hfailed, -, htransient, -⟩
    · rfl
    · rw [(ch.refuses_of_failed hfirst h' hb hfailed).code] at htransient
      cases htransient

/-- There are two turns, and the second one decides on the call that the first one makes. -/
def insists (c : Call) : List (a.CompletedTurn runId policy) → Bool
  | [t, u] => match t.action, u.decision with
    | .callTool c₁ _ _, .callTool c₂ => c₁.same c && c₂.same c₁
    | _, _ => false
  | _ => false

theorem of_insists {turns : List (a.CompletedTurn runId policy)} (h : insists c turns = true) :
    ∃ t u c₁ n w c₂, turns = [t, u] ∧ t.action = .callTool c₁ n w ∧ u.decision = .callTool c₂ ∧
      c₁.same c = true ∧ c₂.same c₁ = true := by
  unfold insists at h
  split at h
  · split at h
    · rename_i t u _ _ c₁ n w c₂ ht hu
      obtain ⟨h₁, h₂⟩ := Bool.and_eq_true_iff.1 h
      exact ⟨t, u, c₁, n, w, c₂, rfl, ht, hu, h₁, h₂⟩
    · cases h
  · cases h

/-- Looks something up and does not say what, twice. -/
def forgetful : Agent StateStore.Table :=
  .rehearsed [Executor.finding] [.calls "find", .calls "find"]

theorem forgetful_run : insists ⟨"find", .emptyObject⟩
    (forgetful.turns "run" .rehearsed .standard .standard .rehearsed) = true := by decide +kernel

/-- The user is asked what is to be looked up. -/
theorem missing_parameters_forgetful : ∃ t u q report s',
    forgetful.turns "run" .rehearsed .standard .standard .rehearsed = [t, u] ∧
    t.start.Bodiless t.after ∧ u.action = .askUser q ["query"] ∧
    (forgetful.run "run" .rehearsed .standard .standard).run .rehearsed = (some report, s') ∧
    report.verdict = ⟨.awaitingUser, false, "user input required"⟩ := by
  obtain ⟨t, u, c₁, n, w, c₂, hturns, ht, hu, h₁, h₂⟩ := of_insists forgetful_run
  have hfind : forgetful.executor.Incomplete ⟨"find", .emptyObject⟩ Executor.finding :=
    ⟨rfl, by decide, by decide⟩
  obtain ⟨hincomplete, hmissing⟩ := hfind.of_same h₁
  obtain ⟨ch⟩ := forgetful.exists_chronicle "run" .standard .rehearsed .standard .rehearsed
  have hfresh : forgetful.firstState "run" .rehearsed .standard .rehearsed =
      .initial .rehearsed .standard := rfl
  obtain ⟨-, hends, -⟩ :=
    @missing_parameters _ forgetful "run" .standard _ _ _ _ _ hfresh hincomplete
  obtain ⟨u', report, s', hturns', -, hrun, hgiven⟩ := hends 0 t n w (u.before, u.start) c₂
    (by rw [hturns]; rfl) ht (by rw [ch.begun, hturns]; rfl) (hu ▸ u.decides) h₂
  obtain ⟨haction, hverdict⟩ := hgiven.asks rfl
  rw [hmissing] at haction
  exact ⟨t, u', _, report, s', hturns', hgiven.refused, haction, hrun, hverdict⟩

end Agent

end Conductor

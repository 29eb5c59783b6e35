import Conductor.Proofs.Policy

/-!
# The table of the failure policy

What becomes of a decision for a call stands in a table of five rows. One of them is always the
case, and never two: the call is made for the first time, or it has failed before, and then it is
made again, another tool is called, the user is asked, or the run stops. Attempts are counted from
one; where a failed attempt is counted as the zeroth, a call that is made again without a wait is
made like one that is made for the first time.

* `FailurePolicy.Row`, `FailurePolicy.Row.action` : the rows, and what is done in each of them;
* `FailurePolicy.Retries`, `FailurePolicy.Replaces`, `FailurePolicy.Asks` : what may be done about a
  failure;
* `FailurePolicy.retryWait` : the wait before a failed call is made again;
* `FailurePolicy.Row.Holds` : when a row is the case;
* `FailurePolicy.resolve_table` : **just one row is the case, and what it says is done;**
* `FailurePolicy.zeroth_attempt` : a call that has failed may be made like a first one.
-/

namespace Conductor

namespace FailurePolicy

/-- What becomes of a decision for a call. -/
inductive Row where
  /-- The call is made for the first time. -/
  | fresh
  /-- The call is made again. -/
  | retried (attempt : Nat) (wait : Duration)
  /-- Another tool is called with the same arguments. -/
  | replaced (tool : String)
  /-- The user is asked for values. -/
  | asked (fields : List String)
  | stopped (reason : String)

/-- What is done about the decision. -/
def Row.action (c : Call) : Row → Action
  | .fresh => .callTool c 1 .zero
  | .retried n wait => .callTool c n wait
  | .replaced f => .callTool ⟨f, c.args⟩ 1 .zero
  | .asked fields => .askUser (questionFor c fields) fields
  | .stopped reason => .stop reason

variable (p : FailurePolicy) (r : Registry) (c : Call)

/-- How the waits for a tool grow: as the enabled tool declares, or else doubling from the base that
the policy allows. -/
def retryShape (name : String) : RetryPolicy :=
  (r.get? name >>= Tool.retryPolicy).getD (.plain p.maxRetries p.baseBackoff .exponential)

/-- The wait before a failed call is made again: what is due by its number, or what the tool has
asked for, if that is longer. -/
def retryWait (failed : Result) : Duration :=
  max ((p.retryShape r c.name).delay failed.attempt c.name) (failed.retryAfter.getD .zero)

/-- The failed call is made again: the failure may pass, and the ceiling is not passed. -/
structure Retries (failed : Result) : Prop where
  transient : failed.code.isTransient = true
  within : failed.attempt ≤ p.ceiling r c.name

/-- A tool is called in place of one that has failed and is not called again: the policy allows it,
the failure is none of the call itself, the enabled tool has declared the other one, and this is
another tool that is enabled. -/
structure Replaces (failed : Result) (f : String) : Prop where
  done : ¬ p.Retries r c failed
  valid : failed.code ≠ .invalidInput
  found : failed.code ≠ .notFound
  allowed : p.useFallbacks = true
  declared : ∃ t, r.get? c.name = some t ∧ t.fallback = some f
  other : f ≠ c.name
  enabled : ∃ u, r.get? f = some u

/-- The user is asked for the values that were missing. -/
structure Asks (failed : Result) : Prop where
  invalid : failed.code = .invalidInput
  allowed : p.askUserWhenMissingFields = true
  missing : failed.missingFields ≠ []

/-- When a row is the case after the last observation. -/
def Row.Holds (last : Option Observation) : Row → Prop
  | .fresh => ∀ failed, ¬ Failed c failed last
  | .retried n wait => ∃ failed, Failed c failed last ∧ p.Retries r c failed ∧
      n = failed.attempt + 1 ∧ wait = p.retryWait r c failed
  | .replaced f => ∃ failed, Failed c failed last ∧ p.Replaces r c failed f
  | .asked fields => ∃ failed, Failed c failed last ∧ p.Asks failed ∧ fields = failed.missingFields
  | .stopped reason => ∃ failed, Failed c failed last ∧ ¬ p.Retries r c failed ∧
      (∀ f, ¬ p.Replaces r c failed f) ∧ ¬ p.Asks failed ∧ reason = unrecoverable failed

variable {p r c} {failed : Result} {last : Option Observation}

/-! ### No two rows are the case -/

theorem Asks.not_retries (h : p.Asks failed) : ¬ p.Retries r c failed := by
  rintro ⟨htransient, -⟩
  rw [h.invalid] at htransient
  cases htransient

theorem Replaces.not_asks {f : String} (h : p.Replaces r c failed f) : ¬ p.Asks failed :=
  fun hasks => h.valid hasks.invalid

/-- A tool declares one other tool at most. -/
theorem Replaces.unique {f g : String} (hf : p.Replaces r c failed f)
    (hg : p.Replaces r c failed g) : f = g := by
  obtain ⟨t, ht, hf⟩ := hf.declared
  obtain ⟨u, hu, hg⟩ := hg.declared
  obtain rfl := Option.some.inj (ht.symm.trans hu)
  exact Option.some.inj (hf.symm.trans hg)

theorem Row.Holds.unique {row row' : Row} (h : row.Holds p r c last)
    (h' : row'.Holds p r c last) : row = row' := by
  by_cases hfailed : ∃ failed, Failed c failed last
  · obtain ⟨failed, hfailed⟩ := hfailed
    -- every row but the first speaks of this one failure
    have hsame (failed' : Result) : Failed c failed' last ↔ failed' = failed :=
      ⟨fun h => (h.unique hfailed).1, fun h => h ▸ hfailed⟩
    cases row <;> cases row' <;> simp only [Holds, hsame, exists_eq_left, forall_eq] at h h'
    all_goals grind [Asks.not_retries, Replaces.not_asks, Replaces.unique, Replaces.done]
  · have hnone (failed : Result) : ¬ Failed c failed last := fun h => hfailed ⟨failed, h⟩
    cases row <;> cases row' <;> simp_all [Holds]

/-! ### Some row is the case -/

theorem waitAfter_eq : waitAfter (p.retryPolicyFor r c) c failed = p.retryWait r c failed := by
  have hdelay : (p.retryPolicyFor r c).delay failed.attempt c.name =
      (p.retryShape r c.name).delay failed.attempt c.name := by
    unfold retryPolicyFor retryShape
    cases r.get? c.name >>= Tool.retryPolicy <;> rfl
  unfold waitAfter retryWait
  rw [hdelay]
  cases failed.retryAfter with
  | none => exact congrArg Duration.mk (Nat.max_zero _).symm
  | some hint => rfl

/-- A failure that is none of the call itself lets another tool stand in, or stops the run. -/
theorem replaces_iff (hdone : ¬ p.Retries r c failed) (hvalid : failed.code ≠ .invalidInput)
    (hfound : failed.code ≠ .notFound) {f : String} :
    p.Replaces r c failed f ↔ p.standIn? r c = some f := by
  rw [standIn?_eq_some_iff]
  constructor
  · exact fun h => ⟨h.allowed, h.declared, h.other, h.enabled⟩
  · exact fun ⟨hallowed, hdeclared, hother, henabled⟩ =>
      ⟨hdone, hvalid, hfound, hallowed, hdeclared, hother, henabled⟩

/-- **A failed call that is not made again is escalated as a row says.** -/
theorem escalate_row (h : Failed c failed last) (hdone : ¬ p.Retries r c failed) :
    ∃ row : Row, p.escalate r c failed = row.action c ∧ row.Holds p r c last := by
  unfold escalate
  split
  next hcode =>
    -- the call itself was at fault, so that no other tool is called
    have hno (f : String) : ¬ p.Replaces r c failed f := fun h => h.valid hcode
    split
    next hasks =>
      have hasks : p.Asks failed := ⟨hcode, by simp_all, by simp_all⟩
      exact ⟨.asked failed.missingFields, rfl, failed, h, hasks, rfl⟩
    next hasks =>
      have hasks : ¬ p.Asks failed := fun h => hasks (by simp [h.allowed, h.missing])
      exact ⟨.stopped (unrecoverable failed), rfl, failed, h, hdone, hno, hasks, rfl⟩
  next hcode =>
    have hno (f : String) : ¬ p.Replaces r c failed f := fun h => h.found hcode
    have hasks : ¬ p.Asks failed := fun h => by cases hcode.symm.trans h.invalid
    exact ⟨.stopped (unrecoverable failed), rfl, failed, h, hdone, hno, hasks, rfl⟩
  next hvalid hfound =>
    have hasks : ¬ p.Asks failed := fun h => hvalid h.invalid
    split
    next f hf =>
      exact ⟨.replaced f, rfl, failed, h, (replaces_iff hdone hvalid hfound).2 hf⟩
    next hf =>
      have hno (f : String) : ¬ p.Replaces r c failed f := fun h => by
        cases hf.symm.trans ((replaces_iff hdone hvalid hfound).1 h)
      exact ⟨.stopped (unrecoverable failed), rfl, failed, h, hdone, hno, hasks, rfl⟩

theorem afterFailure_row (h : Failed c failed last) :
    ∃ row : Row, p.afterFailure r c failed = row.action c ∧ row.Holds p r c last := by
  unfold afterFailure
  simp only [retryPolicyFor_maxRetries, Bool.and_eq_true, decide_eq_true_eq]
  split
  next hretries =>
    refine ⟨.retried (failed.attempt + 1) (p.retryWait r c failed), ?_, ?_⟩
    · rw [waitAfter_eq]
      rfl
    · exact ⟨failed, h, ⟨hretries.1, hretries.2⟩, rfl, rfl⟩
  next hdone => exact escalate_row h fun hretries => hdone ⟨hretries.1, hretries.2⟩

/-- **The decision for a call becomes what the table says**, and just one row of the table is the
case. Only the first two rows call the same tool. The call is made like a first one just if it has
not failed, or if the failed attempt was the zeroth and is made again without a wait. -/
theorem resolve_table (p : FailurePolicy) (r : Registry) (c : Call) (last : Option Observation)
    (state : RunState) :
    ∃ row : Row, p.resolve r (.callTool c) last state = row.action c ∧
      (∀ row' : Row, row'.Holds p r c (last.or state.lastObservation) ↔ row' = row) ∧
      (∀ c' n wait, p.resolve r (.callTool c) last state = .callTool c' n wait →
        c'.name = c.name → row = .fresh ∨ row = .retried n wait) ∧
      (p.resolve r (.callTool c) last state = .first c ↔
        (∀ failed, ¬ Failed c failed (last.or state.lastObservation)) ∨
        ∃ failed, Failed c failed (last.or state.lastObservation) ∧ failed.attempt = 0 ∧
          p.Retries r c failed ∧ p.retryWait r c failed = .zero) := by
  obtain ⟨row, hrow, hholds⟩ : ∃ row : Row, p.resolve r (.callTool c) last state = row.action c ∧
      row.Holds p r c (last.or state.lastObservation) := by
    rcases resolve_cases p r c last state with ⟨hno, hfresh⟩ | ⟨failed, hfailed, hafter⟩
    · exact ⟨.fresh, hfresh, hno⟩
    · rw [hafter]
      exact afterFailure_row hfailed
  rw [hrow]
  refine ⟨row, rfl, fun row' => ⟨fun h => h.unique hholds, fun h => h ▸ hholds⟩, ?_, ?_⟩
  · intro c' n wait haction hname
    cases row with
    | fresh => exact .inl rfl
    | retried n' wait' =>
      cases haction
      exact .inr rfl
    | replaced f =>
      obtain ⟨failed, -, hreplaces⟩ := hholds
      cases haction
      exact absurd hname hreplaces.other
    | asked | stopped => cases haction
  · constructor
    · intro haction
      cases row with
      | fresh => exact .inl hholds
      | retried n wait =>
        obtain ⟨failed, hfailed, hretries, rfl, rfl⟩ := hholds
        obtain ⟨-, hnumber, hwait⟩ := Action.callTool.inj haction
        exact .inr ⟨failed, hfailed, Nat.succ.inj hnumber, hretries, hwait⟩
      | replaced f =>
        obtain ⟨failed, -, hreplaces⟩ := hholds
        obtain ⟨hcall, -⟩ := Action.callTool.inj haction
        exact absurd (congrArg Call.name hcall) hreplaces.other
      | asked | stopped => cases haction
    · rintro (hno | ⟨failed, hfailed, hzeroth, hretries, hwait⟩)
      · have hfresh : Row.fresh.Holds p r c (last.or state.lastObservation) := hno
        rw [← hfresh.unique hholds]
        rfl
      · have hagain : (Row.retried (failed.attempt + 1) (p.retryWait r c failed)).Holds p r c
            (last.or state.lastObservation) := ⟨failed, hfailed, hretries, rfl, rfl⟩
        rw [← hagain.unique hholds, hzeroth, hwait]
        rfl

/-- What was observed of a call that has failed at the zeroth attempt. -/
def zeroth : Observation where
  tool := "fetch"
  summary := "busy"
  facts := .empty
  affordances := []
  result := .failure ⟨"fetch", .emptyObject⟩ 0 .retryableServer "busy"

/-- Without a wait, a call that has failed at the zeroth attempt is made like a first one. -/
theorem zeroth_attempt : ¬ ∀ (p : FailurePolicy) (r : Registry) (c : Call)
    (last : Option Observation) (state : RunState),
    p.resolve r (.callTool c) last state = .first c ↔
      ∀ failed, ¬ Failed c failed (last.or state.lastObservation) := by
  intro h
  let p : FailurePolicy := ⟨2, .zero, true, true⟩
  let c : Call := ⟨"fetch", .emptyObject⟩
  have hwait : p.retryWait .empty c zeroth.result = .zero := by decide +kernel
  have hmade : p.resolve .empty (.callTool c) (some zeroth) (.initial default .standard) =
      .callTool c 1 (waitAfter (p.retryPolicyFor .empty c) c zeroth.result) := rfl
  rw [waitAfter_eq, hwait] at hmade
  exact (h p .empty c (some zeroth) (.initial default .standard)).1 hmade zeroth.result
    ⟨zeroth, rfl, rfl, rfl, by decide⟩

end FailurePolicy

end Conductor

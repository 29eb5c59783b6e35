import Conductor.Policy
import Conductor.Proofs.Json.Equality

/-!
# What the failure policy does

A decision for a call is either made as it is, or it meets the failure of the same call that was
last observed. Then it is a further attempt, as long as the ceiling of retries allows it; or it is
given up, and no action for it makes the same call again.

* `FailurePolicy.ceiling` : how often a call may be tried again;
* `FailurePolicy.resolve_cases` : **the two ways of resolving a call**;
* `FailurePolicy.afterFailure_cases` : **a further attempt within the ceiling, or giving up**;
* `FailurePolicy.standIn?_eq_some_iff` : which tool stands in for another one;
* `FailurePolicy.GivesUp` : the actions of a call that is given up;
* `FailurePolicy.resolve_eq_callTool` : **where an attempt at a call comes from;**
* `FailurePolicy.resolve_congr` : what the policy reads of a registry.
-/

namespace Conductor

namespace FailurePolicy

variable {p : FailurePolicy} {r : Registry} {c : Call} {failed : Result}

/-- How often a call of a tool may be tried again: as often as the policy allows, and no more often
than the enabled tool declares, if it declares anything. -/
def ceiling (p : FailurePolicy) (r : Registry) (name : String) : Nat :=
  match r.get? name >>= Tool.retryPolicy with
  | some own => min p.maxRetries own.maxRetries
  | none => p.maxRetries

theorem retryPolicyFor_maxRetries : (p.retryPolicyFor r c).maxRetries = p.ceiling r c.name := by
  unfold retryPolicyFor ceiling
  cases r.get? c.name >>= Tool.retryPolicy with
  | none => rfl
  | some own => exact Nat.min_comm ..

/-- What may be done about a failed call instead of making it again. -/
inductive GivesUp (c : Call) (failed : Result) : Action → Prop
  /-- Another tool is called with the same arguments. -/
  | standIn {f : String} (hf : f ≠ c.name) : GivesUp c failed (.first ⟨f, c.args⟩)
  | asks {question : String} {fields : List String} :
      GivesUp c failed (.askUser question fields)
  | stops : GivesUp c failed (.stop (unrecoverable failed))

/-- **A tool stands in for another one** if the policy allows it, the other one names it, and it is
another tool that is enabled. -/
theorem standIn?_eq_some_iff {f : String} : p.standIn? r c = some f ↔ p.useFallbacks = true ∧
    (∃ t, r.get? c.name = some t ∧ t.fallback = some f) ∧ f ≠ c.name ∧
      ∃ u, r.get? f = some u := by
  simp only [standIn?, Option.ite_none_right_eq_some, Option.bind_eq_bind, Option.bind_eq_some_iff]
  refine and_congr_right fun _ => ⟨?_, ?_⟩
  · rintro ⟨t, ht, g, hg, h⟩
    split at h
    · cases h
    · rename_i hreal
      obtain ⟨hne, hsome⟩ := not_or.1 hreal
      obtain rfl := Option.some.inj h
      exact ⟨⟨t, ht, hg⟩, hne, Option.ne_none_iff_exists'.1 (by simpa using hsome)⟩
  · rintro ⟨⟨t, ht, hf⟩, hne, u, hu⟩
    refine ⟨t, ht, f, hf, ?_⟩
    simp [hne, hu]

theorem standIn?_ne {f : String} (h : p.standIn? r c = some f) : f ≠ c.name :=
  (standIn?_eq_some_iff.1 h).2.2.1

/-- **A call that is escalated is given up.** -/
theorem escalate_givesUp : GivesUp c failed (p.escalate r c failed) := by
  unfold escalate
  split
  · split
    · exact .asks
    · exact .stops
  · exact .stops
  · split
    · rename_i hf
      exact .standIn (standIn?_ne hf)
    · exact .stops

variable (p r c failed) in
/-- **After a failure the call is tried again within the ceiling, if the failure may pass, and is
given up otherwise.** -/
theorem afterFailure_cases :
    ((failed.code.isTransient = true ∧ failed.attempt ≤ p.ceiling r c.name) ∧
      ∃ wait, p.afterFailure r c failed = .callTool c (failed.attempt + 1) wait) ∨
    (¬ (failed.code.isTransient = true ∧ failed.attempt ≤ p.ceiling r c.name) ∧
      GivesUp c failed (p.afterFailure r c failed)) := by
  unfold afterFailure
  simp only [retryPolicyFor_maxRetries, Bool.and_eq_true, decide_eq_true_eq]
  by_cases h : failed.code.isTransient = true ∧ failed.attempt ≤ p.ceiling r c.name
  · rw [if_pos h]
    exact .inl ⟨h, _, rfl⟩
  · rw [if_neg h]
    exact .inr ⟨h, escalate_givesUp⟩

/-- The last observation is the failure of the same call. -/
def Failed (c : Call) (failed : Result) (last : Option Observation) : Prop :=
  ∃ o, last = some o ∧ o.result = failed ∧ failed.ok = false ∧ failed.call.same c = true

theorem priorFailure?_eq_some {last : Option Observation} :
    priorFailure? c last = some failed ↔ Failed c failed last := by
  unfold priorFailure? Failed
  cases last with
  | none => simp
  | some o =>
    simp only [Option.bind_eq_bind, Option.bind_some, Option.ite_none_right_eq_some,
      Option.some.injEq, Bool.and_eq_true, Bool.not_eq_true', exists_eq_left']
    constructor
    · rintro ⟨h, rfl⟩
      exact ⟨rfl, h⟩
    · rintro ⟨rfl, h⟩
      exact ⟨h, rfl⟩

variable (p r c) in
/-- **A decision for a call is the first attempt, or what is done about the failure of the same
call that was last observed.** The last observation is the one given, or else that of the state. -/
theorem resolve_cases (last : Option Observation) (state : RunState) :
    ((∀ failed, ¬ Failed c failed (last.or state.lastObservation)) ∧
      p.resolve r (.callTool c) last state = .first c) ∨
    ∃ failed, Failed c failed (last.or state.lastObservation) ∧
      p.resolve r (.callTool c) last state = p.afterFailure r c failed := by
  unfold resolve
  simp only
  split
  · rename_i failed h
    exact .inr ⟨failed, priorFailure?_eq_some.1 h, rfl⟩
  · rename_i h
    refine .inl ⟨fun failed hf => ?_, rfl⟩
    rw [priorFailure?_eq_some.2 hf] at h
    cases h

variable (p r c) in
/-- In a run the last observation is that of the state. -/
theorem resolve_call_cases (state : RunState) :
    ((∀ failed, ¬ Failed c failed state.lastObservation) ∧
      p.resolve r (.callTool c) state.lastObservation state = .first c) ∨
    ∃ failed, Failed c failed state.lastObservation ∧
      p.resolve r (.callTool c) state.lastObservation state = p.afterFailure r c failed := by
  have h := resolve_cases p r c state.lastObservation state
  rwa [Option.or_self] at h

theorem Failed.of_same {last : Option Observation} {c' : Call} (h : Failed c failed last)
    (hs : c.same c' = true) : Failed c' failed last := by
  obtain ⟨o, ho, hr, hok, hc⟩ := h
  exact ⟨o, ho, hr, hok, Call.same_trans hc hs⟩

/-- The last observation is of one result only. -/
theorem Failed.unique {last : Option Observation} {c' : Call} {failed' : Result}
    (h : Failed c failed last) (h' : Failed c' failed' last) :
    failed = failed' ∧ c.name = c'.name := by
  obtain ⟨o, rfl, rfl, -, hs⟩ := h
  obtain ⟨o', ho, rfl, -, hs'⟩ := h'
  obtain rfl := Option.some.inj ho
  exact ⟨rfl, (Call.name_eq_of_same hs).symm.trans (Call.name_eq_of_same hs')⟩

/-- **An attempt at a call is the first one, and then no failure of the call was last observed; or
it follows on such a failure, within the ceiling.** -/
theorem resolve_eq_callTool {state : RunState} {d : Decision} {n : Nat} {wait : Duration}
    (h : p.resolve r d state.lastObservation state = .callTool c n wait) :
    (n = 1 ∧ ∀ failed, ¬ Failed c failed state.lastObservation) ∨
    ∃ failed, Failed c failed state.lastObservation ∧ n = failed.attempt + 1 ∧
      failed.code.isTransient = true ∧ failed.attempt ≤ p.ceiling r c.name := by
  cases d with
  | callTool c₀ =>
    rcases resolve_call_cases p r c₀ state with
      ⟨hno, hf⟩ | ⟨failed, hfailed, hf⟩
    · cases hf.symm.trans h
      exact .inl ⟨rfl, hno⟩
    · rcases afterFailure_cases p r c₀ failed with
        ⟨⟨ht, hle⟩, wait, ha⟩ | ⟨-, hg⟩
      · cases (hf.trans ha).symm.trans h
        exact .inr ⟨failed, hfailed, rfl, ht, hle⟩
      · rw [← hf, h] at hg
        -- the stand-in is another tool than the one that has failed
        obtain ⟨hf⟩ := hg
        exact .inl ⟨rfl, fun failed' h' => hf (h'.unique hfailed).2⟩
  | askUser q fields => cases h
  | stop reason => cases h
  | replan gs => cases h

/-- **Decisions are resolved alike with registries that declare the same retries and stand-ins.** -/
theorem resolve_congr {r' : Registry}
    (hretry : ∀ c, p.retryPolicyFor r c = p.retryPolicyFor r' c)
    (hstandIn : ∀ c, p.standIn? r c = p.standIn? r' c) (d : Decision) (last : Option Observation)
    (state : RunState) : p.resolve r d last state = p.resolve r' d last state := by
  simp only [resolve, afterFailure, escalate, hretry, hstandIn]

end FailurePolicy

end Conductor

import Conductor.Proofs.Run.Rehearsed
import Conductor.Proofs.Run.Turn

/-!
# The contract of a result

An attempt at a call gets its result in one of many ways, and every one of them fills in the parts
of the result by itself. Whoever reads a result relies on what its parts say of each other. None of
this depends on the validator that compares arguments and outputs with their schemas.

* `Executor.Results` : the ways in which an attempt gets its result;
* `Executor.execute_results` : **there are no others;**
* `Result.Coherent` : a success, no code, no detail and a validated output are one and the same;
* `Result.Candid` : the other parts of a result are filled in only where they belong;
* `Executor.result_contract` : **every result of an attempt is coherent and candid, and every
  repaired result is coherent.**
-/

namespace Conductor

/-! ### Parts of a result -/

/-- The parts of a result agree: it is a success exactly if it has no code, exactly if it is
validated and exactly if it has no detail; and the output of a success conforms to the schema, if
there is one, in the eyes of the validator. -/
structure Result.Coherent (r : Result) (violations : Json → Json → List String)
    (schema : Option Json) : Prop where
  code : r.ok = true ↔ r.code = .none
  validated : r.ok = true ↔ r.schemaValidated = true
  detail : r.ok = true ↔ r.detail = none
  conforms : r.ok = true → ∀ document, schema = some document → violations document r.data = []

/-- The other parts of a result are filled in only where they belong. Its output is one that the
body has given. -/
structure Result.Candid (r : Result) (given : Json → Prop) : Prop where
  missing : r.missingFields ≠ [] → r.code = .invalidInput
  retryAfter : r.retryAfter ≠ none → r.code = .retryableServer ∨ r.code = .rateLimited
  data : r.ok = false → r.data ≠ .null → r.code = .outputSchemaMismatch
  output : r.ok = true ∨ r.code = .outputSchemaMismatch → given r.data

namespace Result

variable {violations : Json → Json → List String} {c : Call} {n : Nat} {schema : Option Json}
  {given : Json → Prop}

theorem success_coherent {v : Json}
    (hv : ∀ document, schema = some document → violations document v = []) :
    (success c n v).Coherent violations schema where
  code := ⟨fun _ => rfl, fun _ => rfl⟩
  validated := Iff.rfl
  detail := ⟨fun _ => rfl, fun _ => rfl⟩
  conforms _ := hv

theorem success_candid {v : Json} (hv : given v) : (success c n v).Candid given where
  missing h := absurd rfl h
  retryAfter h := absurd rfl h
  data h := nomatch h
  output _ := hv

/-- A result that is no success: what it holds of the output and of the request is left open. -/
theorem failed_coherent {r : Result} (hok : r.ok = false) (hcode : r.code ≠ .none)
    (hvalidated : r.schemaValidated = false) (hdetail : r.detail.isSome = true) :
    r.Coherent violations schema where
  code := by simp [hok, hcode]
  validated := by simp [hok, hvalidated]
  detail := by
    obtain ⟨m, hm⟩ := Option.isSome_iff_exists.1 hdetail
    simp [hok, hm]
  conforms h := by simp [hok] at h

theorem failure_coherent {code : ErrorCode} {m : String} (hcode : code ≠ .none) :
    (failure c n code m).Coherent violations schema := failed_coherent rfl hcode rfl rfl

/-- A failure without an output. -/
theorem failure_candid {code : ErrorCode} {m : String} (hcode : code ≠ .outputSchemaMismatch) :
    (failure c n code m).Candid given where
  missing h := absurd rfl h
  retryAfter h := absurd rfl h
  data _ h := absurd rfl h
  output h := absurd (h.resolve_left Bool.false_ne_true) hcode

/-- How long an attempt took does not matter for its contract. -/
theorem Coherent.withLatency {r : Result} (h : r.Coherent violations schema) (d : Duration) :
    { r with latency := d }.Coherent violations schema :=
  ⟨h.code, h.validated, h.detail, h.conforms⟩

theorem Candid.withLatency {r : Result} (h : r.Candid given) (d : Duration) :
    { r with latency := d }.Candid given := ⟨h.missing, h.retryAfter, h.data, h.output⟩

end Result

/-- A repaired output conforms. -/
theorem Json.conforms_of_repairedUnder? {violations : Json → Json → List String}
    {raw schema fixed : Json} (h : raw.repairedUnder? violations schema = some fixed) :
    violations schema fixed = [] := by
  simp only [repairedUnder?, Option.bind_eq_bind, Option.bind_eq_some_iff] at h
  obtain ⟨ms, -, declared, -, h⟩ := h
  split at h
  · split at h
    · rename_i hconforms
      obtain rfl := Option.some.inj h
      exact List.isEmpty_iff.1 hconforms
    · cases h
  · cases h

/-- A failure that a tool reports has a code of its own. -/
theorem Failure.code_ne (f : Failure) : f.code ≠ .none ∧ f.code ≠ .outputSchemaMismatch := by
  cases f with
  | retryable m limited d => cases limited <;> exact ⟨nofun, nofun⟩
  | _ => exact ⟨nofun, nofun⟩

/-- Only a failure that is not for good says how long to wait. -/
theorem Failure.code_of_retryAfter {f : Failure} (h : f.retryAfter ≠ none) :
    f.code = .retryableServer ∨ f.code = .rateLimited := by
  cases f with
  | retryable m limited d => cases limited <;> simp [code]
  | _ => exact absurd rfl h

namespace Executor

variable {σ : Type} (x : Executor) {validate : Json → Json → List String} {c : Call} {n : Nat}
  {s s' : Session σ}

/-! ### Ways to a result -/

/-- The deadline of the body of a tool. -/
def timeoutOf (tool : Tool) : Duration := tool.timeout.getD x.defaultTimeout

/-- How the body of a tool ends when it is to be started with these arguments. -/
def ends (tool : Tool) (args : Json) (n : Nat) (s : Session σ) : Ended (Except Failure Json) :=
  if s.clock.look.cancelled then .interrupted
  else
    let index := (s.invocations.get? tool.name).getD 0
    let deadline := s.clock.now + (x.timeoutOf tool).millisUp
    ((tool.body index args ⟨x.workingDir, x.env, n⟩).run (some deadline) s.clock.look).1

/-- The ways in which an attempt at a call gets its result: there is no tool, or its arguments do
not conform, or its body has ended. -/
inductive Results (validate : Json → Json → List String) (c : Call) (n : Nat) (s : Session σ) :
    Result → Prop
  | unknown (htool : x.registry.get? c.name = none) : Results validate c n s (unknownTool c n)
  | refused {tool : Tool} {args : Json} {violations : List String}
      (htool : x.registry.get? c.name = some tool)
      (hargs : Parameter.applyDefaults tool.parameters c.args = args)
      (hviolations : validate (Parameter.inputSchema tool.parameters) args = violations)
      (hflawed : violations ≠ []) :
      Results validate c n s (invalidInput tool c n args violations)
  | concluded {tool : Tool} {args : Json} (htool : x.registry.get? c.name = some tool)
      (hargs : Parameter.applyDefaults tool.parameters c.args = args)
      (hsound : validate (Parameter.inputSchema tool.parameters) args = []) :
      Results validate c n s
        (concludeUnder validate tool (x.timeoutOf tool) c n (x.ends tool args n s))

/-- The body is run as it ends. -/
theorem invoke_ends {tool : Tool} {args : Json} {e : Ended (Except Failure Json)}
    (h : (x.invoke tool (x.timeoutOf tool) args n).run s = (e, s')) : x.ends tool args n s = e := by
  obtain ⟨c, s₁, hl, h⟩ := Outside.run_bind_eq.1 h
  obtain ⟨rfl, rfl⟩ := Prod.mk.inj hl
  unfold ends
  by_cases hc : s.clock.look.cancelled = true
  · rw [if_pos hc] at h ⊢
    exact (Outside.run_pure_eq.1 h).1
  · rw [if_neg hc] at h ⊢
    obtain ⟨s₂, s₃, hg, h⟩ := Outside.run_bind_eq.1 h
    obtain ⟨rfl, rfl⟩ := Prod.mk.inj hg
    obtain ⟨_, s₄, hm, h⟩ := Outside.run_bind_eq.1 h
    obtain ⟨-, rfl⟩ := Prod.mk.inj hm
    obtain ⟨_, s₅, hn, h⟩ := Outside.run_bind_eq.1 h
    obtain ⟨-, rfl⟩ := Prod.mk.inj hn
    obtain ⟨now, s₆, ht, h⟩ := Outside.run_bind_eq.1 h
    obtain ⟨rfl, rfl⟩ := Prod.mk.inj ht
    exact (Prod.mk.inj h).1

theorem outcome_results {r : Result} (h : (x.outcomeUnder validate c n).run s = (r, s')) :
    x.Results validate c n s r := by
  unfold outcomeUnder at h
  split at h
  · rename_i htool
    obtain ⟨rfl, -⟩ := Outside.run_pure_eq.1 h
    exact .unknown htool
  · rename_i tool htool
    simp only at h
    split at h
    · rename_i hsound
      obtain ⟨e, s₁, hi, h⟩ := Outside.run_bind_eq.1 h
      obtain ⟨rfl, -⟩ := Outside.run_pure_eq.1 h
      rw [← x.invoke_ends hi]
      exact .concluded htool rfl hsound
    · rename_i hflawed
      obtain ⟨rfl, -⟩ := Outside.run_pure_eq.1 h
      exact .refused htool rfl rfl hflawed

/-- **An attempt gets its result in one of these ways**, and the time that it took is added. -/
theorem execute_results {r : Result} (h : (x.executeUnder validate c n).run s = (r, s')) :
    ∃ r₀ ms, x.Results validate c n s r₀ ∧ r = { r₀ with latency := .millis ms } := by
  obtain ⟨r₀, s₁, ms, ho, -, hr⟩ := x.executeUnder_outcome h
  exact ⟨r₀, ms, x.outcome_results ho, hr⟩

/-! ### Coherent results -/

/-- The schema of the outputs of the tool with this name. -/
def outputSchema? (name : String) : Option Json := (x.registry.get? name).bind (·.outputSchema)

/-- The body of the tool gives the output in an attempt at a call. -/
def Gives (c : Call) (n : Nat) (s : Session σ) (v : Json) : Prop :=
  ∃ tool, x.registry.get? c.name = some tool ∧
    x.ends tool (Parameter.applyDefaults tool.parameters c.args) n s = .returned (.ok v)

variable {given : Json → Prop}

theorem returned_contract (tool : Tool) {v : Json} (hv : given v) :
    (returnedUnder validate tool c n v).Coherent validate tool.outputSchema ∧
      (returnedUnder validate tool c n v).Candid given := by
  unfold returnedUnder
  split
  · rename_i hschema
    exact ⟨Result.success_coherent (by simp [hschema]), Result.success_candid hv⟩
  · rename_i document hschema
    split
    · rename_i hsound
      refine ⟨Result.success_coherent ?_, Result.success_candid hv⟩
      rw [hschema]
      rintro _ ⟨⟩
      exact hsound
    · -- the output that does not conform is kept
      refine ⟨Result.failed_coherent rfl nofun rfl rfl, ?_⟩
      exact ⟨fun h => absurd rfl h, fun h => absurd rfl h, fun _ _ => rfl, fun _ => hv⟩

theorem reported_contract (f : Failure) {schema : Option Json} :
    (reported c n f).Coherent validate schema ∧ (reported c n f).Candid given := by
  obtain ⟨hnone, hmismatch⟩ := f.code_ne
  refine ⟨Result.failed_coherent rfl hnone rfl rfl, ?_⟩
  exact ⟨fun h => absurd rfl h, f.code_of_retryAfter, fun _ h => absurd rfl h,
    fun h => absurd (h.resolve_left Bool.false_ne_true) hmismatch⟩

theorem conclude_contract {tool : Tool} {timeout : Duration} {e : Ended (Except Failure Json)}
    (he : ∀ v, e = .returned (.ok v) → given v) :
    (concludeUnder validate tool timeout c n e).Coherent validate tool.outputSchema ∧
      (concludeUnder validate tool timeout c n e).Candid given := by
  rcases e with (f | v) | m | _ | _ | _
  · exact reported_contract f
  · exact returned_contract tool (he v rfl)
  all_goals exact ⟨Result.failure_coherent nofun, Result.failure_candid nofun⟩

/-- Whichever way an attempt gets its result, the result keeps the contract. -/
theorem Results.contract {r : Result} (h : x.Results validate c n s r) :
    r.Coherent validate (x.outputSchema? c.name) ∧ r.Candid (x.Gives c n s) := by
  cases h with
  | unknown htool => exact ⟨Result.failure_coherent nofun, Result.failure_candid nofun⟩
  | refused htool hargs hviolations hflawed =>
    refine ⟨Result.failed_coherent rfl nofun rfl rfl, ?_⟩
    exact ⟨fun _ => rfl, fun h => absurd rfl h, fun _ h => absurd rfl h, nofun⟩
  | @concluded tool args htool hargs hsound =>
    rw [outputSchema?, htool, Option.bind_some]
    refine conclude_contract fun v hv => ⟨tool, htool, ?_⟩
    rw [hargs]
    exact hv

/-- A repaired result is a success for the same call and attempt. -/
theorem repair?_coherent {r r' : Result} (h : x.repairUnder? validate r = some r') :
    r'.ok = true ∧ r'.Coherent validate (x.outputSchema? r.call.name) := by
  unfold repairUnder? at h
  split at h
  · cases h
  simp only [Option.bind_eq_bind, Option.bind_eq_some_iff] at h
  obtain ⟨tool, htool, document, hschema, fixed, hfixed, h⟩ := h
  obtain rfl := Option.some.inj h
  refine ⟨rfl, ⟨fun _ => rfl, fun _ => rfl⟩, Iff.rfl, ⟨fun _ => rfl, fun _ => rfl⟩, ?_⟩
  rw [outputSchema?, htool, Option.bind_some, hschema]
  rintro - _ ⟨⟩
  exact Json.conforms_of_repairedUnder? hfixed

/-- **Every result of an attempt keeps the contract**, whatever the registry, the call, the outside
and the tool: it is for that call and that attempt, and it is coherent and candid. **So is every
result that comes of a repair.** This holds with the validator in use as with any other. -/
theorem result_contract :
    (∀ (c : Call) (n : Nat) (s s' : Session σ) (r : Result), (x.execute c n).run s = (r, s') →
      r.IsFor c n ∧ r.Coherent Json.violationsOf (x.outputSchema? c.name) ∧
        r.Candid (x.Gives c n s)) ∧
    (∀ r r' : Result, x.repair? r = some r' →
      r'.IsFor r.call r.attempt ∧ r'.ok = true ∧
        r'.Coherent Json.violationsOf (x.outputSchema? r.call.name)) ∧
    ∀ validate : Json → Json → List String,
      (∀ (c : Call) (n : Nat) (s s' : Session σ) (r : Result),
        (x.executeUnder validate c n).run s = (r, s') →
          r.IsFor c n ∧ r.Coherent validate (x.outputSchema? c.name) ∧
            r.Candid (x.Gives c n s)) ∧
      ∀ r r' : Result, x.repairUnder? validate r = some r' →
        r'.IsFor r.call r.attempt ∧ r'.ok = true ∧
          r'.Coherent validate (x.outputSchema? r.call.name) := by
  have hattempt {validate} (c : Call) (n : Nat) (s s' : Session σ) (r : Result)
      (h : (x.executeUnder validate c n).run s = (r, s')) : r.IsFor c n ∧
        r.Coherent validate (x.outputSchema? c.name) ∧ r.Candid (x.Gives c n s) := by
    obtain ⟨r₀, ms, hr₀, rfl⟩ := x.execute_results h
    obtain ⟨hcoherent, hcandid⟩ := hr₀.contract
    exact ⟨x.executeUnder_isFor h, hcoherent.withLatency _, hcandid.withLatency _⟩
  have hrepair {validate} (r r' : Result) (h : x.repairUnder? validate r = some r') :
      r'.IsFor r.call r.attempt ∧ r'.ok = true ∧
        r'.Coherent validate (x.outputSchema? r.call.name) :=
    ⟨x.repairUnder?_isFor ⟨rfl, rfl⟩ h, x.repair?_coherent h⟩
  exact ⟨hattempt, hrepair, fun _ => ⟨hattempt, hrepair⟩⟩

/-- An executor with one tool, which has to give a temperature and misnames it. -/
def forecaster : Executor :=
  let schema := Json.object
    [("properties", .object [("temperature", .object [("type", .string "number")])]),
      ("required", .strings ["temperature"]), ("type", .string "object")]
  let script := [Outcome.output (.object [("temp", .nat 20)])]
  .plain (.ofList [{ Tool.rehearsed "forecast" script with outputSchema := some schema }]) 30

/-- The output does not conform, and the result with the repaired output is a success. -/
theorem result_contract_forecaster :
    ∃ r s r', (forecaster.execute ⟨"forecast", .null⟩ 1).run Session.rehearsed = (r, s) ∧
      r.code = .outputSchemaMismatch ∧
      r.Candid (forecaster.Gives ⟨"forecast", .null⟩ 1 Session.rehearsed) ∧
      forecaster.repair? r = some r' ∧ r'.data = .object [("temperature", .nat 20)] ∧
      r'.Coherent Json.violationsOf (forecaster.outputSchema? r.call.name) := by
  obtain ⟨hexecute, hrepair, -⟩ := result_contract forecaster
  have hcode : ((forecaster.execute ⟨"forecast", .null⟩ 1).run Session.rehearsed).1.code =
      .outputSchemaMismatch := rfl
  have hdata : (forecaster.repair?
      ((forecaster.execute ⟨"forecast", .null⟩ 1).run Session.rehearsed).1).map (·.data) =
      some (.object [("temperature", .nat 20)]) := rfl
  generalize hrun : (forecaster.execute ⟨"forecast", .null⟩ 1).run Session.rehearsed = p
    at hcode hdata
  obtain ⟨r', hr', hdata⟩ := Option.map_eq_some_iff.1 hdata
  exact ⟨p.1, p.2, r', rfl, hcode, (hexecute _ _ _ _ _ hrun).2.2, hr', hdata,
    (hrepair _ _ hr').2.2⟩

end Executor

end Conductor

import Conductor.State
import Conductor.Tool.Registry

/-!
# The failure policy

What is done about a decision when the last call has failed. A call that is not the one that failed
is simply made. The failed call is tried again as often as the policies allow, if the failure may
pass; then another tool may stand in, the user may be asked for what is missing, or the run stops.

* `FailurePolicy.resolve` : the action for a decision;
* `FailurePolicy.escalate` : what is done when a call is not tried again.
-/

namespace Conductor

/-- What may be done about failures. -/
structure FailurePolicy where
  maxRetries : Nat
  baseBackoff : Duration
  useFallbacks : Bool
  askUserWhenMissingFields : Bool
  deriving DecidableEq, Repr, Inhabited

namespace FailurePolicy

/-- Two retries, stand-ins and questions allowed. -/
def standard : FailurePolicy := ⟨2, .millis 500, true, true⟩

/-- The retry policy for a call: that of the tool, within the retries that are allowed, or one that
doubles the wait. -/
def retryPolicyFor (p : FailurePolicy) (r : Registry) (call : Call) : RetryPolicy :=
  match r.get? call.name >>= Tool.retryPolicy with
  | some own => { own with maxRetries := min own.maxRetries p.maxRetries }
  | none => .plain p.maxRetries p.baseBackoff .exponential

/-- The wait before the next attempt: as long as the tool asks for, if that is longer. -/
def waitAfter (retry : RetryPolicy) (call : Call) (failed : Result) : Duration :=
  let own := retry.delay failed.attempt call.name
  match failed.retryAfter with
  | some hint => max own hint
  | none => own

/-- The tool that stands in for another one. -/
def standIn? (p : FailurePolicy) (r : Registry) (call : Call) : Option String :=
  if p.useFallbacks then do
    let f ← (← r.get? call.name).fallback
    if f = call.name ∨ (r.get? f).isNone then none else some f
  else none

/-- Why a run stops after a failure. -/
def unrecoverable (failed : Result) : String :=
  "Unrecoverable failure of tool '" ++ failed.call.name ++ "' (" ++ failed.code.name ++
    ") after " ++ toString failed.attempt ++ " attempt(s): " ++ failed.detail.getD "no detail"

/-- The question about values that are missing. -/
def questionFor (call : Call) (fields : List String) : String :=
  "Tool '" ++ call.name ++ "' needs values for: " ++ ", ".intercalate fields ++
    ". Please provide them."

/-- What is done about a failed call that is not tried again. -/
def escalate (p : FailurePolicy) (r : Registry) (call : Call) (failed : Result) : Action :=
  match failed.code with
  | .invalidInput =>
    if p.askUserWhenMissingFields && !failed.missingFields.isEmpty then
      .askUser (questionFor call failed.missingFields) failed.missingFields
    else .stop (unrecoverable failed)
  | .notFound => .stop (unrecoverable failed)
  | _ => match p.standIn? r call with
    | some f => .first ⟨f, call.args⟩
    | none => .stop (unrecoverable failed)

/-- What is done about a failed call. -/
def afterFailure (p : FailurePolicy) (r : Registry) (call : Call) (failed : Result) : Action :=
  let retry := p.retryPolicyFor r call
  if failed.code.isTransient && decide (failed.attempt ≤ retry.maxRetries) then
    .callTool call (failed.attempt + 1) (waitAfter retry call failed)
  else p.escalate r call failed

/-- The failure of the same call that was last observed. -/
def priorFailure? (call : Call) (last : Option Observation) : Option Result := do
  let o ← last
  if !o.result.ok && o.result.call.same call then some o.result else none

/-- The action for a decision. The last observation is the one given, or else that of the state. -/
def resolve (p : FailurePolicy) (r : Registry) (decision : Decision) (last : Option Observation)
    (state : RunState) : Action :=
  match decision with
  | .callTool call =>
    match priorFailure? call (last.or state.lastObservation) with
    | some failed => p.afterFailure r call failed
    | none => .first call
  | .askUser question fields => .askUser question fields
  | .stop reason => .stop reason
  | .replan subgoals => .replan subgoals

open Json

/-- The JSON of a policy. -/
def codec : Codec FailurePolicy where
  format := .open_ "ErrorHandlingPolicy"
    [("max_retries", .required, .u32), ("base_backoff", .required, Duration.codec.format),
      ("use_fallbacks", .required, .bool), ("ask_user_when_missing_fields", .required, .bool)]
  encode p := .object
    [("max_retries", .nat p.maxRetries), ("base_backoff", Duration.codec.encode p.baseBackoff),
      ("use_fallbacks", .bool p.useFallbacks),
      ("ask_user_when_missing_fields", .bool p.askUserWhenMissingFields)]
  decode? j := do
    return {
      maxRetries := ← j.part? "max_retries" nat?
      baseBackoff := ← j.part? "base_backoff" Duration.codec.decode?
      useFallbacks := ← j.part? "use_fallbacks" bool?
      askUserWhenMissingFields := ← j.part? "ask_user_when_missing_fields" bool? }

end FailurePolicy

end Conductor

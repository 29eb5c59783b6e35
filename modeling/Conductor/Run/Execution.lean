import Conductor.Run.Session
import Conductor.Schema.Repair
import Conductor.Tool.Registry

/-!
# Executing tool calls

Every call goes through the same steps: the tool is looked up, the arguments are checked, the body
is run under a deadline, the output is checked. Whatever happens becomes a result with a code. The
checks are made by a validator, which gives the violations of a schema document by a value; each
step is there for any validator, and then for the one in use.

* `Executor.execute`, `Executor.executeUnder` : the result of one attempt at a call;
* `Executor.repair?`, `Executor.repairUnder?` : a result whose output did not conform, with the
  output repaired;
* `Executor.conclude`, `Executor.concludeUnder` : the result for the way in which the body ended.
-/

namespace Conductor

/-- How tool calls are executed. -/
structure Executor where
  registry : Registry
  /-- The deadline of tools that have none of their own. -/
  defaultTimeout : Duration
  workingDir : String
  env : Keyed String

namespace Executor

variable {σ : Type}

/-- An executor with a deadline, in the current directory and without an environment. -/
def plain (registry : Registry) (timeoutSeconds : Nat) : Executor :=
  ⟨registry, .seconds timeoutSeconds, ".", .empty⟩

/-- How many characters of the arguments an audit shows. -/
def previewChars : Nat := 200

/-- The arguments as an audit shows them. -/
def argsPreview (args : Json) : String := Text.clip args.compact previewChars "..."

/-- The result of a call of a tool that is not there. -/
def unknownTool (call : Call) (attempt : Nat) : Result :=
  .failure call attempt .notFound ("Unknown tool: " ++ call.name)

/-- The result of a call with arguments that do not conform. -/
def invalidInput (tool : Tool) (call : Call) (attempt : Nat) (args : Json)
    (violations : List String) : Result :=
  { Result.failure call attempt .invalidInput ("; ".intercalate violations) with
    missingFields := Parameter.missingRequired tool.parameters args }

/-- The result of a call whose tool reported a failure. -/
def reported (call : Call) (attempt : Nat) (f : Failure) : Result :=
  { Result.failure call attempt f.code f.message with retryAfter := f.retryAfter }

/-- Starts the body of a tool: the invocation is counted and recorded. -/
def invoke (x : Executor) (tool : Tool) (timeout : Duration) (args : Json) (attempt : Nat) :
    Outside σ (Ended (Except Failure Json)) := do
  if ← Outside.look then return .interrupted
  let index := ((← get).invocations.get? tool.name).getD 0
  modify fun s => { s with invocations := s.invocations.insert tool.name (index + 1) }
  Outside.note (.invoked tool.name args)
  let deadline := (← Outside.now) + timeout.millisUp
  Outside.perform (some deadline) (tool.body index args ⟨x.workingDir, x.env, attempt⟩)

/-- The record of a result. -/
def auditOf (call : Call) (attempt ms : Nat) (r : Result) : Audit :=
  ⟨call.name, r.ok, r.code, attempt, ms, argsPreview call.args⟩

/-! ### Steps under any validator -/

section Validator

variable (violations : Json → Json → List String)

/-- The result of a call that gave an output. -/
def returnedUnder (tool : Tool) (call : Call) (attempt : Nat) (data : Json) : Result :=
  match tool.outputSchema with
  | none => .success call attempt data
  | some schema =>
    match violations schema data with
    | [] => .success call attempt data
    | found =>
      { Result.failure call attempt .outputSchemaMismatch ("; ".intercalate found) with
        data := data }

/-- The result for the way in which the body of a tool ended. -/
def concludeUnder (tool : Tool) (timeout : Duration) (call : Call) (attempt : Nat) :
    Ended (Except Failure Json) → Result
  | .returned (.ok data) => returnedUnder violations tool call attempt data
  | .returned (.error f) => reported call attempt f
  | .panicked m => .failure call attempt .toolBug ("tool panicked: " ++ m)
  | .expired | .stalled =>
    .failure call attempt .timeout ("timed out after " ++ toString timeout.wholeMillis ++ "ms")
  | .interrupted => .failure call attempt .timeout "cancelled"

/-- The result of one attempt at a call, without its latency. -/
def outcomeUnder (x : Executor) (call : Call) (attempt : Nat) : Outside σ Result :=
  match x.registry.get? call.name with
  | none => return unknownTool call attempt
  | some tool =>
    let args := Parameter.applyDefaults tool.parameters call.args
    match violations (Parameter.inputSchema tool.parameters) args with
    | [] => do
      let timeout := tool.timeout.getD x.defaultTimeout
      return concludeUnder violations tool timeout call attempt
        (← x.invoke tool timeout args attempt)
    | found => return invalidInput tool call attempt args found

/-- The result of one attempt at a call. -/
def executeUnder (x : Executor) (call : Call) (attempt : Nat) : Outside σ Result := do
  let before ← Outside.now
  let r ← x.outcomeUnder violations call attempt
  let ms := (← Outside.now) - before
  Outside.note (.audited (auditOf call attempt ms r))
  return { r with latency := .millis ms }

/-- The result with its output repaired, if the output did not conform and can be repaired. -/
def repairUnder? (x : Executor) (r : Result) : Option Result := do
  if r.code ≠ .outputSchemaMismatch then none
  else
    let schema ← (← x.registry.get? r.call.name).outputSchema
    let fixed ← r.data.repairedUnder? violations schema
    return { r with
      ok := true
      data := fixed
      code := .none
      detail := none
      schemaValidated := true
      repaired := true }

end Validator

/-! ### The validator in use -/

/-- The result for the way in which the body of a tool ended. -/
def conclude (tool : Tool) (timeout : Duration) (call : Call) (attempt : Nat)
    (e : Ended (Except Failure Json)) : Result :=
  concludeUnder Json.violationsOf tool timeout call attempt e

/-- The result of one attempt at a call, without its latency. -/
def outcome (x : Executor) (call : Call) (attempt : Nat) : Outside σ Result :=
  x.outcomeUnder Json.violationsOf call attempt

/-- The result of one attempt at a call. -/
def execute (x : Executor) (call : Call) (attempt : Nat) : Outside σ Result :=
  x.executeUnder Json.violationsOf call attempt

/-- The result with its output repaired, if the output did not conform and can be repaired. -/
def repair? (x : Executor) (r : Result) : Option Result := x.repairUnder? Json.violationsOf r

end Executor

end Conductor

import Conductor.Tool.Call
import Conductor.Tool.Failure

/-!
# Results of tool calls

A result says what became of one attempt at a call: the output, or a code and a detail.

* `Result.success`, `Result.failure` : the two kinds of result;
* `Result.codec` : its JSON.
-/

namespace Conductor

/-- What became of one attempt at a call. -/
structure Result where
  call : Call
  ok : Bool
  data : Json
  code : ErrorCode
  detail : Option String
  schemaValidated : Bool
  attempt : Nat
  latency : Duration
  missingFields : List String
  retryAfter : Option Duration
  repaired : Bool
  deriving Repr, Inhabited

namespace Result

/-- The result of a call that gave an output. -/
def success (call : Call) (attempt : Nat) (data : Json) : Result where
  call := call
  ok := true
  data := data
  code := .none
  detail := none
  schemaValidated := true
  attempt := attempt
  latency := .zero
  missingFields := []
  retryAfter := none
  repaired := false

/-- The result of a call that gave none. -/
def failure (call : Call) (attempt : Nat) (code : ErrorCode) (detail : String) : Result where
  call := call
  ok := false
  data := .null
  code := code
  detail := some detail
  schemaValidated := false
  attempt := attempt
  latency := .zero
  missingFields := []
  retryAfter := none
  repaired := false

open Json

/-- The JSON of a result. -/
def codec : Codec Result where
  format := .open_ "ToolResult"
    [("call", .required, Call.codec.format),
      ("ok", .required, .bool),
      ("data", .required, .any),
      ("error_code", .required, ErrorCode.codec.format),
      ("error_detail", .nullable, .string),
      ("schema_validated", .required, .bool),
      ("attempt", .required, .u32),
      ("latency", .required, Duration.codec.format),
      ("missing_fields", .default (.array []), .list .string),
      ("retry_after", .nullable, Duration.codec.format),
      ("repaired", .default (.bool false), .bool)]
  encode r := .object
    [("call", Call.codec.encode r.call),
      ("ok", .bool r.ok),
      ("data", r.data),
      ("error_code", ErrorCode.codec.encode r.code),
      ("error_detail", .ofOption .string r.detail),
      ("schema_validated", .bool r.schemaValidated),
      ("attempt", .nat r.attempt),
      ("latency", Duration.codec.encode r.latency),
      ("missing_fields", .strings r.missingFields),
      ("retry_after", .ofOption Duration.codec.encode r.retryAfter),
      ("repaired", .bool r.repaired)]
  decode? j := do
    return {
      call := ← j.part? "call" Call.codec.decode?
      ok := ← j.part? "ok" bool?
      data := ← j.get? "data"
      code := ← j.part? "error_code" ErrorCode.codec.decode?
      detail := ← j.part? "error_detail" (optional text?)
      schemaValidated := ← j.part? "schema_validated" bool?
      attempt := ← j.part? "attempt" nat?
      latency := ← j.part? "latency" Duration.codec.decode?
      missingFields := ← j.part? "missing_fields" texts?
      retryAfter := ← j.part? "retry_after" (optional Duration.codec.decode?)
      repaired := ← j.part? "repaired" bool? }

end Result

end Conductor

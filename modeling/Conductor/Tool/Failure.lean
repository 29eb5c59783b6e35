import Conductor.Duration

/-!
# Failures of tools

What a tool can report instead of a result, and the closed list of codes that the rest of the
engine decides by.

* `Failure.code` : the code of a reported failure;
* `ErrorCode.isTransient` : the codes after which the same call may be tried again.
-/

namespace Conductor

/-- How a call ended. -/
inductive ErrorCode where
  | none
  | invalidInput
  | timeout
  | retryableServer
  | rateLimited
  | outputSchemaMismatch
  | noResults
  | toolBug
  | unauthorized
  | forbidden
  | notFound
  deriving DecidableEq, Repr, Inhabited

namespace ErrorCode

/-- All codes. -/
def all : List ErrorCode :=
  [.none, .invalidInput, .timeout, .retryableServer, .rateLimited, .outputSchemaMismatch,
    .noResults, .toolBug, .unauthorized, .forbidden, .notFound]

/-- The word for a code. -/
def name : ErrorCode → String
  | .none => "none"
  | .invalidInput => "invalid_input"
  | .timeout => "timeout"
  | .retryableServer => "retryable_server"
  | .rateLimited => "rate_limited"
  | .outputSchemaMismatch => "output_schema_mismatch"
  | .noResults => "no_results"
  | .toolBug => "tool_bug"
  | .unauthorized => "unauthorized"
  | .forbidden => "forbidden"
  | .notFound => "not_found"

/-- Trying again may help. -/
def isTransient : ErrorCode → Bool
  | .timeout | .retryableServer | .rateLimited => true
  | _ => false

/-- The call itself was at fault. -/
def isValidation : ErrorCode → Bool
  | .invalidInput | .notFound => true
  | _ => false

/-- The code that a word stands for. -/
def ofName? (s : String) : Option ErrorCode := all.find? fun c => c.name == s

open Json

/-- The JSON of a code. -/
def codec : Codec ErrorCode where
  format := .choice (all.map name)
  encode c := .string c.name
  decode? j := do ofName? (← j.text?)

end ErrorCode

/-- What a tool reports when it cannot give a result. -/
inductive Failure where
  | retryable (message : String) (rateLimited : Bool) (retryAfter : Option Duration)
  | unauthorized (message : String)
  | forbidden (message : String)
  | noResults (message : String)
  | failed (message : String)
  deriving DecidableEq, Repr, Inhabited

namespace Failure

/-- The code of a failure. -/
def code : Failure → ErrorCode
  | .retryable _ limited _ => if limited then .rateLimited else .retryableServer
  | .unauthorized _ => .unauthorized
  | .forbidden _ => .forbidden
  | .noResults _ => .noResults
  | .failed _ => .toolBug

/-- What the tool said. -/
def message : Failure → String
  | .retryable m _ _ => m
  | .unauthorized m => m
  | .forbidden m => m
  | .noResults m => m
  | .failed m => m

/-- How long the tool asks to wait before the next attempt. -/
def retryAfter : Failure → Option Duration
  | .retryable _ _ d => d
  | _ => Option.none

end Failure

end Conductor

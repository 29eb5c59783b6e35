import Conductor.Activity
import Conductor.Keyed
import Conductor.Retry.Backoff
import Conductor.Tool.Failure
import Conductor.Tool.Parameter

/-!
# Tools

A tool is what it declares about itself and a body. The body is given the number of the invocation,
the arguments and a context.
-/

namespace Conductor

/-- What a body is told besides its arguments. -/
structure ToolContext where
  workingDir : String
  env : Keyed String
  attempt : Nat

/-- A tool that can be called. -/
structure Tool where
  name : String
  description : String
  parameters : List Parameter
  outputSchema : Option Json
  timeout : Option Duration
  retryPolicy : Option RetryPolicy
  /-- The tool that may stand in for this one. -/
  fallback : Option String
  body : Nat → Json → ToolContext → Activity (Except Failure Json)

end Conductor

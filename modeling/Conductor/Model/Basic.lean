import Conductor.Activity
import Conductor.Json.Format
import Conductor.Number.Shortest

/-!
# Models

A model is asked with a prompt and answers with a text or an error. What it answers may depend on
how often it has been asked before.

* `Prompt` : what a model is asked with;
* `Model` : the answers, each after the time the request needs to arrive;
* `ModelError.message` : the wording of an error.
-/

namespace Conductor

/-- How a model chooses its words. -/
structure Sampling where
  maxTokens : Nat
  /-- A binary number of 32 bits. -/
  temperature : Binary.Extended
  deriving DecidableEq, Repr, Inhabited

namespace Sampling

open Binary (single)

/-- The temperature of the planner unless it is set otherwise. -/
def standard : Sampling := ⟨1024, single.round false 1 5⟩

/-- The sampling of the critic unless it is set otherwise. -/
def forCritic : Sampling := ⟨256, single.round false 0 1⟩

/-- The text of the temperature. -/
def temperatureText (s : Sampling) : String := single.renderPlain s.temperature

end Sampling

/-- What a model is asked with. -/
structure Prompt where
  system : String
  user : String
  sampling : Sampling
  deriving DecidableEq, Repr, Inhabited

/-- Why a model gives no answer. -/
inductive ModelError where
  | api (message : String)
  | rateLimited (retryAfterMs : Nat)
  | timeout
  deriving DecidableEq, Repr, Inhabited

/-- The wording of an error. -/
def ModelError.message : ModelError → String
  | .api m => "API error: " ++ m
  | .rateLimited ms => "Rate limited, retry after " ++ toString ms ++ "ms"
  | .timeout => "Request timeout"

/-- What becomes of one request. -/
structure Exchange where
  /-- The milliseconds until the request has arrived. -/
  transit : Nat
  answer : Activity (Except ModelError String)

/-- What becomes of the request of a number, counted from zero. -/
abbrev Model := Nat → Prompt → Exchange

end Conductor

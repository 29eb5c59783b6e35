import Conductor.Model.Basic

/-!
# Rehearsed models

A model that plays a script: every request is answered by the next reply of a list. When the list
is used up, one text is repeated, or the model reports that there is nothing left.

* `Reply.exchange` : what becomes of a request;
* `Reply.play` : the model of a script.
-/

namespace Conductor

/-- What a rehearsed model does with one request. -/
inductive Reply where
  | text (s : String)
  | error (e : ModelError)
  | panic (message : String)
  /-- Never answers. -/
  | hang
  /-- Cancels the run and answers. -/
  | cancelThen (s : String)
  /-- Is asked only after a delay. -/
  | after (ms : Nat) (s : String)
  deriving Repr, Inhabited

namespace Reply

/-- What becomes of a request. -/
def exchange : Reply → Exchange
  | .text s => ⟨0, .done (.ok s)⟩
  | .error e => ⟨0, .done (.error e)⟩
  | .panic m => ⟨0, .panic (some m)⟩
  | .hang => ⟨0, .never⟩
  | .cancelThen s => ⟨0, .cancel (.done (.ok s))⟩
  | .after ms s => ⟨ms, .done (.ok s)⟩

/-- The reply to a request when the list is used up. -/
def exhausted : Reply := .error (.api "mock script exhausted")

/-- The model of a script. -/
def play (replies : List Reply) (fallback : Option String) : Model := fun n _ =>
  (replies[n]?.getD ((fallback.map Reply.text).getD exhausted)).exchange

end Reply

end Conductor

import Conductor.Json.Format
import Conductor.Text.Case
import Conductor.Text.Fence

/-!
# Critiques

A critique says whether a result satisfies the goal, and what to do next. It is read from the reply
of a model; a reply that has not the form of a critique is taken as its assessment, and then the
goal is not satisfied.

* `Critique.ofReply` : the critique of a reply;
* `Critique.codec` : the JSON of a critique.
-/

namespace Conductor

/-- What a critic recommends. -/
inductive Recommendation where
  | continue_
  | replan
  | clarify
  | stop
  deriving DecidableEq, Repr, Inhabited

namespace Recommendation

/-- All recommendations. -/
def all : List Recommendation := [.continue_, .replan, .clarify, .stop]

/-- The word for a recommendation. -/
def name : Recommendation → String
  | .continue_ => "continue"
  | .replan => "replan"
  | .clarify => "clarify"
  | .stop => "stop"

/-- The word for a recommendation in a prompt. -/
def title : Recommendation → String
  | .continue_ => "Continue"
  | .replan => "Replan"
  | .clarify => "Clarify"
  | .stop => "Stop"

/-- The recommendation that a word stands for. -/
def ofName? (s : String) : Option Recommendation := all.find? fun r => r.name == s

/-- The recommendation that a model wrote; what is not known means to continue. -/
def ofReply (text : Option String) : Recommendation :=
  match text with
  | some s => (ofName? (Text.lower (Text.trim s))).getD .continue_
  | none => .continue_

end Recommendation

/-- A judgement on a result. -/
structure Critique where
  assessment : String
  goalSatisfied : Bool
  recommendation : Recommendation
  deriving DecidableEq, Repr, Inhabited

namespace Critique

/-- A critique that leaves everything as it is. -/
def neutral (assessment : String) : Critique := ⟨assessment, false, .continue_⟩

open Json

/-- The JSON of a critique. -/
def codec : Codec Critique where
  format := .open_ "Critique"
    [("assessment", .required, .string), ("goal_satisfied", .required, .bool),
      ("recommendation", .required, .choice (Recommendation.all.map Recommendation.name))]
  encode c := .object
    [("assessment", .string c.assessment), ("goal_satisfied", .bool c.goalSatisfied),
      ("recommendation", .string c.recommendation.name)]
  decode? j := do
    return {
      assessment := ← j.part? "assessment" text?
      goalSatisfied := ← j.part? "goal_satisfied" bool?
      recommendation := ← j.part? "recommendation" fun r => do
        Recommendation.ofName? (← r.text?) }

/-- The form of a critique in a reply: any field may be missing. -/
def replyFormat : Format :=
  .open_ "CritiqueReply"
    [("assessment", .default (.string ""), .string),
      ("goal_satisfied", .default (.bool false), .bool),
      ("recommendation", .nullable, .string)]

/-- The critique in the form of a reply. -/
def ofNormal? (j : Json) : Option Critique := do
  return {
    assessment := ← j.part? "assessment" text?
    goalSatisfied := ← j.part? "goal_satisfied" bool?
    recommendation := .ofReply (← j.part? "recommendation" (optional text?)) }

/-- The critique of a reply that has not the form of one. -/
def ofPlainText (body : String) : Critique :=
  if body.isEmpty || Text.startsWithOk body then neutral "OK" else neutral body

/-- The critique of a reply. -/
def ofReply (reply : String) : Critique :=
  let body := Text.stripFence reply
  match (replyFormat.ofText body).toOption >>= ofNormal? with
  | some c => c
  | none => ofPlainText body

end Critique

end Conductor

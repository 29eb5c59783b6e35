import Conductor.Decision.Basic
import Conductor.Decision.ToolName
import Conductor.Text.Fence

/-!
# Decisions in replies

A reply holds one JSON object. The first of four keys that it has says how the object is read: the
key `action` names a variant whose fields stand beside it; the keys `call_tool`, `stop` and
`ask_user` hold the fields of that variant. Nothing is guessed: a reply of another form is a fault.

* `Decision.parse` : the decision that a reply holds;
* `Decision.ofObject?` : the same for an object;
* `Decision.Fault.message` : the wording of a fault.
-/

namespace Conductor

namespace Decision

/-- Why a reply holds no decision. -/
inductive Fault where
  /-- The reply is no JSON. -/
  | misread (e : Json.Misreading) (payload : String)
  /-- The reply is JSON, but no object. -/
  | notObject (payload : String)
  /-- The object has none of the four keys. -/
  | noShape (payload : String)
  /-- What stands under the key has not the form of its variant. -/
  | malformed (key : String) (cause : Json.Refusal)
  /-- A call without the name of a tool. -/
  | blankName
  deriving DecidableEq, Repr

/-- The wording of a fault. -/
def Fault.message : Fault → String
  | .misread e payload => e.message ++ ": " ++ payload
  | .notObject payload => "expected a JSON object, got: " ++ payload
  | .noShape payload => "no 'action' field and no recognized alternate shape: " ++ payload
  | .malformed key cause => "malformed '" ++ key ++ "' object: " ++ cause.message
  | .blankName => "call_tool with empty tool name"

open Json

/-! ### Forms -/

/-- The fields of a call in a reply. -/
def replyCallFields : List (String × Presence × Format) :=
  [("name", .required, .string), ("args", .default .null, .any)]

/-- The fields of a question in a reply. -/
def replyAskUserFields : List (String × Presence × Format) :=
  [("question", .required, .string), ("missing_fields", .default (.array []), .list .string)]

/-- An object whose key `action` names the variant. -/
def actionFormat : Format :=
  .tagged "TaggedDecision" "action"
    [("call_tool", "struct variant TaggedDecision::CallTool", replyCallFields),
      ("ask_user", "struct variant TaggedDecision::AskUser", replyAskUserFields),
      ("replan", "struct variant TaggedDecision::Replan", replanFields),
      ("stop", "struct variant TaggedDecision::Stop", stopFields)]

/-- What stands under the key `call_tool`. -/
def callFormat : Format := .open_ "CallToolShape" replyCallFields

/-- What stands under the key `stop`. -/
def stopFormat : Format := .open_ "StopShape" stopFields

/-- What stands under the key `ask_user`. -/
def askUserFormat : Format := .open_ "AskUserShape" replyAskUserFields

/-! ### Reading -/

/-- The decision to call a tool; arguments that are `null` are no arguments. -/
def callOf (name : String) (args : Json) : Except Fault Decision :=
  if Text.isBlankText name then .error .blankName
  else .ok (.callTool ⟨name, if args.isNull then .emptyObject else args⟩)

/-- The arguments are `null` or an object without members. -/
def lacksArgs : Json → Bool
  | .null => true
  | .object ms => ms.isEmpty
  | _ => false

/-- The normal form of what stands under a key, read further. -/
def readUnder (key : String) (f : Format) (j : Json) (further : Json → Option (Except Fault Decision)) :
    Except Fault Decision :=
  match f.ofValue j with
  | .error e => .error (.malformed key e)
  | .ok normal =>
    (further normal).getD (.error (.malformed key ⟨.custom "value out of range", none⟩))

/-- The decision of an object that has the key `action`. -/
def ofAction (object : Json) : Except Fault Decision :=
  readUnder "action" actionFormat object fun j => do
    match ← j.part? "action" text? with
    | "call_tool" => return callOf (← j.part? "name" text?) (← j.get? "args")
    | "ask_user" =>
      return .ok (.askUser (← j.part? "question" text?) (← j.part? "missing_fields" texts?))
    | "replan" => return .ok (.replan (← j.part? "subgoals" texts?))
    | "stop" => return .ok (.stop (← j.part? "reason" text?))
    | _ => none

/-- The decision of what stands under `call_tool`: the name is brought into its registered
spelling, and missing arguments become the default ones. -/
def ofCall (value : Json) : Except Fault Decision :=
  readUnder "call_tool" callFormat value fun j => do
    let name := canonicalToolName (← j.part? "name" text?)
    let args ← j.get? "args"
    return callOf name (if lacksArgs args then (defaultArgs? name).getD args else args)

/-- The decision of what stands under `stop`. -/
def ofStop (value : Json) : Except Fault Decision :=
  readUnder "stop" stopFormat value fun j => do return .ok (.stop (← j.part? "reason" text?))

/-- The decision of what stands under `ask_user`: a question that asks for nothing in particular
ends the run. -/
def ofAskUser (value : Json) : Except Fault Decision :=
  readUnder "ask_user" askUserFormat value fun j => do
    let question ← j.part? "question" text?
    let fields ← j.part? "missing_fields" texts?
    return .ok (if fields.isEmpty then .stop question else .askUser question fields)

/-- The decision of an object, if it has one of the four keys. -/
def ofObject? (object : Json) : Option (Except Fault Decision) :=
  match object.get? "action", object.get? "call_tool", object.get? "stop",
      object.get? "ask_user" with
  | some _, _, _, _ => some (ofAction object)
  | none, some v, _, _ => some (ofCall v)
  | none, none, some v, _ => some (ofStop v)
  | none, none, none, some v => some (ofAskUser v)
  | none, none, none, none => none

/-- The decision that a reply holds. -/
def parse (reply : String) : Except Fault Decision :=
  let payload := Text.stripFence reply
  match Json.parse payload with
  | .error e => .error (.misread e payload)
  | .ok value =>
    if value.isObject then (ofObject? value).getD (.error (.noShape payload))
    else .error (.notObject payload)

end Decision

end Conductor

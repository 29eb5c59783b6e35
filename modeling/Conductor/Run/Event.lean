import Conductor.Json.Format

/-!
# Events

What a run tells its subscribers, and how events reach them. Every subscriber is given every event;
one that fails loses the event and disturbs no other.

* `Event.codec` : the JSON of an event;
* `Bus.emit` : one event given to all subscribers.
-/

namespace Conductor

/-- A step of a run that is told to subscribers. -/
inductive Event where
  | turnStarted (runId : String) (turn : Nat)
  | turnCompleted (runId : String) (turn durationMs : Nat) (actionType : String)
  | toolCalled (runId tool summary : String)
  | userInputRequested (runId question : String) (missingFields : List String)
  deriving DecidableEq, Repr, Inhabited

namespace Event

/-- The word for the variant of an event. -/
def kind : Event → String
  | .turnStarted _ _ => "turn_started"
  | .turnCompleted _ _ _ _ => "turn_completed"
  | .toolCalled _ _ _ => "tool_called"
  | .userInputRequested _ _ _ => "user_input_requested"

open Json

/-- The fields of the variants. -/
def variants : List (String × String × List (String × Presence × Format)) :=
  let run : String × Presence × Format := ("run_id", .required, .string)
  [("turn_started", "struct variant AgentEvent::TurnStarted", [run, ("turn", .required, .u32)]),
    ("turn_completed", "struct variant AgentEvent::TurnCompleted",
      [run, ("turn", .required, .u32), ("duration_ms", .required, .u64),
        ("action_type", .required, .string)]),
    ("tool_called", "struct variant AgentEvent::ToolCalled",
      [run, ("tool", .required, .string), ("summary", .required, .string)]),
    ("user_input_requested", "struct variant AgentEvent::UserInputRequested",
      [run, ("question", .required, .string), ("missing_fields", .required, .list .string)])]

/-- The JSON of an event. -/
def codec : Codec Event where
  format := .tagged "AgentEvent" "type" variants
  encode e := .object <| ("type", .string e.kind) :: match e with
    | .turnStarted run turn => [("run_id", .string run), ("turn", .nat turn)]
    | .turnCompleted run turn ms action =>
      [("run_id", .string run), ("turn", .nat turn), ("duration_ms", .nat ms),
        ("action_type", .string action)]
    | .toolCalled run tool summary =>
      [("run_id", .string run), ("tool", .string tool), ("summary", .string summary)]
    | .userInputRequested run question fields =>
      [("run_id", .string run), ("question", .string question),
        ("missing_fields", .strings fields)]
  decode? j := do
    let run ← j.part? "run_id" text?
    match ← j.part? "type" text? with
    | "turn_started" => return .turnStarted run (← j.part? "turn" nat?)
    | "turn_completed" =>
      return .turnCompleted run (← j.part? "turn" nat?) (← j.part? "duration_ms" nat?)
        (← j.part? "action_type" text?)
    | "tool_called" => return .toolCalled run (← j.part? "tool" text?) (← j.part? "summary" text?)
    | "user_input_requested" =>
      return .userInputRequested run (← j.part? "question" text?)
        (← j.part? "missing_fields" texts?)
    | _ => none

end Event

/-- What a subscriber does with an event. -/
inductive Subscriber where
  /-- Keeps it. -/
  | channel
  /-- Has gone away. -/
  | closed
  /-- Panics. -/
  | panicking
  /-- Writes it to the log. -/
  | log
  deriving DecidableEq, Repr, Inhabited

/-- The subscriber receives the events it is given. -/
def Subscriber.receives : Subscriber → Bool
  | .channel | .log => true
  | .closed | .panicking => false

/-- A subscriber and what it has received. -/
structure Inbox where
  subscriber : Subscriber
  received : List Event
  deriving DecidableEq, Repr, Inhabited

/-- One event given to a subscriber. -/
def Inbox.take (i : Inbox) (e : Event) : Inbox :=
  if i.subscriber.receives then { i with received := i.received ++ [e] } else i

/-- The subscribers of a run. -/
abbrev Bus := List Inbox

namespace Bus

/-- Subscribers that have received nothing yet. -/
def ofSubscribers (l : List Subscriber) : Bus := l.map fun s => ⟨s, []⟩

/-- One event given to all subscribers. -/
def emit (b : Bus) (e : Event) : Bus := b.map (·.take e)

/-- The events that the subscribers of one kind have received. -/
def received (b : Bus) (s : Subscriber) : List (List Event) :=
  (b.filter fun i => i.subscriber == s).map (·.received)

end Bus

end Conductor

import Conductor.Activity
import Conductor.Model.Basic
import Conductor.Run.Event
import Conductor.State

/-!
# Sessions

The outside of a run while it goes on: the clock, how often models and tools have been called, the
subscribers, what is stored, and a record of everything that the run has done to it, in order.

* `Session` : the outside of a run;
* `Happening` : one thing that was done to it;
* `Outside.perform`, `Outside.attempt` : run a piece of outside work;
* `Outside.save`, `Outside.load`, `Outside.clear` : what is stored under the id of a run.
-/

namespace Conductor

/-- The record of a tool call that is kept for audits. -/
structure Audit where
  tool : String
  ok : Bool
  code : ErrorCode
  attempt : Nat
  durationMs : Nat
  argsPreview : String
  deriving DecidableEq, Repr, Inhabited

/-- The JSON of a record. -/
def Audit.toJson (a : Audit) : Json :=
  .ofMembers
    [("event", .string "tool_audit"), ("tool", .string a.tool), ("ok", .bool a.ok),
      ("error_code", .string a.code.name), ("attempt", .nat a.attempt),
      ("duration_ms", .nat a.durationMs), ("args_preview", .string a.argsPreview)]

/-- One thing that a run does to the outside. -/
inductive Happening where
  /-- The model of the planner is asked. -/
  | plannerAsked (p : Prompt)
  /-- The model of the critic is asked. -/
  | criticAsked (p : Prompt)
  /-- The body of a tool is started. -/
  | invoked (tool : String) (args : Json)
  | audited (a : Audit)
  | emitted (e : Event)
  /-- A state is given to the store. -/
  | saved (runId : String) (s : RunState)
  /-- The store is asked for a state. -/
  | loaded (runId : String)
  | cleared (runId : String)
  /-- The run has become cancelled, by itself or from outside. -/
  | cancelled

/-- The outside of a run. The type `σ` is what its store holds. -/
structure Session (σ : Type) where
  clock : Clock
  /-- Requests that the model of the planner has taken up. -/
  plannerCalls : Nat
  /-- Requests that the own model of the critic has taken up. -/
  criticCalls : Nat
  /-- How often the time that has passed was read. -/
  readings : Nat
  /-- How often each tool has been invoked. -/
  invocations : Keyed Nat
  bus : Bus
  store : σ
  trace : List Happening

/-- A session in which nothing has happened. -/
def Session.start {σ : Type} (clock : Clock) (subscribers : List Subscriber) (store : σ) :
    Session σ :=
  ⟨clock, 0, 0, 0, .empty, .ofSubscribers subscribers, store, []⟩

/-- The outside with another clock. When the run has become cancelled meanwhile, this is recorded. -/
def Session.withClock {σ : Type} (s : Session σ) (clock : Clock) : Session σ :=
  { s with
    clock := clock
    trace := if clock.cancelled && !s.clock.cancelled then s.trace ++ [.cancelled] else s.trace }

/-- What keeps states between runs. An operation gives a message when it fails. -/
structure StateStore (σ : Type) where
  load : String → σ → Except String (Option RunState) × σ
  save : String → RunState → σ → Except String Unit × σ
  clear : String → σ → Except String Unit × σ

/-- Why a state was not stored or found. -/
inductive StoreFault where
  | failed (message : String)
  | cancelled
  deriving DecidableEq, Repr, Inhabited

/-- The wording of a fault. -/
def StoreFault.message : StoreFault → String
  | .failed m => "State store error: " ++ m
  | .cancelled => "Cancelled"

/-- A computation that acts on the outside. -/
abbrev Outside (σ : Type) := StateM (Session σ)

namespace Outside

variable {σ α : Type}

/-- Records a happening. -/
def note (h : Happening) : Outside σ Unit := modify fun s => { s with trace := s.trace ++ [h] }

/-- Gives an event to the subscribers. -/
def emit (e : Event) : Outside σ Unit := do
  note (.emitted e)
  modify fun s => { s with bus := s.bus.emit e }

/-- Looks whether the run is cancelled. -/
def look : Outside σ Bool := modifyGet fun s =>
  let clock := s.clock.look
  (clock.cancelled, s.withClock clock)

/-- The time on the clock. -/
def now : Outside σ Nat := do return (← get).clock.now

/-- Runs a piece of work that has been started. -/
def perform (deadline : Option Nat) (a : Activity α) : Outside σ (Ended α) := modifyGet fun s =>
  let (ended, clock) := a.run deadline s.clock
  (ended, s.withClock clock)

/-- Runs a piece of work unless the run is cancelled. -/
def attempt (a : Activity α) : Outside σ (Ended α) := do
  if ← look then return .interrupted else perform none a

/-! ### The store -/

/-- One operation of the store, with its fault as one of the run. -/
def operate (h : Happening) (op : σ → Except String α × σ) : Outside σ (Except StoreFault α) := do
  note h
  modifyGet fun s =>
    let (r, store) := op s.store
    (r.mapError .failed, { s with store := store })

/-- The state that is stored under an id. The store is asked in a race with the cancellation, which
lasts until it has answered. Here its answer takes one step, and the look before it stands for the
whole race: for a run that is cancelled before as well as for one that is cancelled while a file is
being read. -/
def load (store : Option (StateStore σ)) (runId : String) :
    Outside σ (Except StoreFault (Option RunState)) :=
  match store with
  | none => return .ok none
  | some st => do
    if ← look then return .error .cancelled
    else operate (.loaded runId) (st.load runId)

/-- Stores a state under an id, in a race with the cancellation as in `load`. A save that loses the
race counts as one that was not made; the run ends then, and clears what is stored under its id. -/
def save (store : Option (StateStore σ)) (runId : String) (state : RunState) :
    Outside σ (Except StoreFault Unit) :=
  match store with
  | none => return .ok ()
  | some st => do
    if ← look then return .error .cancelled
    else operate (.saved runId state) (st.save runId state)

/-- Removes what is stored under an id, whether the run is cancelled or not. -/
def clear (store : Option (StateStore σ)) (runId : String) :
    Outside σ (Except StoreFault Unit) :=
  match store with
  | none => return .ok ()
  | some st => operate (.cleared runId) (st.clear runId)

end Outside

end Conductor

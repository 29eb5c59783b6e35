/-!
# Activities

What a piece of outside work does when it is run: it takes time, it may cancel the run it belongs
to, wait for that cancellation, panic, or never come to an end. Time is a number of milliseconds
and moves only while everything waits.

Cancellation is looked at before an activity is started and whenever it starts to wait; an activity
that comes to its end without waiting is not interrupted.

* `Activity.run` : an activity under a clock, with or without a deadline;
* `Clock.look` : looks whether the run is cancelled;
* `Signal` : when the cancellation comes from outside.
-/

namespace Conductor

/-- When the run is cancelled from outside. -/
inductive Signal where
  | never
  /-- At a point in time. -/
  | atTime (ms : Nat)
  /-- After the cancellation has been looked at a number of times. -/
  | afterLooks (n : Nat)
  deriving DecidableEq, Repr, Inhabited

/-- The time of a run, and whether it is cancelled. -/
structure Clock where
  now : Nat
  cancelled : Bool
  /-- How often the cancellation has been looked at. -/
  looks : Nat
  signal : Signal
  deriving DecidableEq, Repr, Inhabited

/-- What a piece of work does. -/
inductive Activity (α : Type) where
  /-- It ends with a value. -/
  | done (a : α)
  /-- It panics, with a text or with something else. -/
  | panic (message : Option String)
  | sleep (ms : Nat) (next : Activity α)
  /-- It cancels the run. -/
  | cancel (next : Activity α)
  /-- It waits for the run to be cancelled. -/
  | awaitCancel (next : Activity α)
  /-- It looks whether the run is cancelled. -/
  | ask (next : Bool → Activity α)
  | never

/-- How a piece of work came to its end. -/
inductive Ended (α : Type) where
  | returned (a : α)
  | panicked (message : String)
  /-- The run was cancelled meanwhile. -/
  | interrupted
  /-- The deadline passed. -/
  | expired
  /-- Nothing will ever happen. -/
  | stalled
  deriving Repr

/-- The text of a panic. -/
def panicText (message : Option String) : String := message.getD "unknown panic payload"

namespace Clock

/-- A clock at time zero. -/
def start (cancelled : Bool) (signal : Signal) : Clock := ⟨0, cancelled, 0, signal⟩

/-- The clock after the cancellation has been looked at once more. -/
def look (c : Clock) : Clock :=
  let due := match c.signal with
    | .afterLooks n => decide (n ≤ c.looks)
    | _ => false
  { c with looks := c.looks + 1, cancelled := c.cancelled || due }

/-- The time at which a signal comes, of one that comes at a time and is still to come. -/
def signalTime? (c : Clock) : Option Nat :=
  match c.signal with
  | .atTime t => some (max t c.now)
  | _ => none

/-- What ends a wait. -/
inductive Wake where
  | own
  | deadline
  | cancellation
  | nothing
  deriving DecidableEq, Repr

/-- The first time comes no later than the second, which may be never. -/
def comesFirst (t : Nat) : Option Nat → Bool
  | some u => t ≤ u
  | none => true

/-- Waits until one's own time, the deadline or the cancellation. Of times that are equal the first
in this order counts. A deadline that has passed already comes before a cancellation. -/
def wait (c : Clock) (deadline own : Option Nat) : Wake × Clock :=
  if deadline.any (· ≤ c.now) then (.deadline, c)
  else
    let c := c.look
    if c.cancelled then (.cancellation, c)
    else
      let signal := c.signalTime?
      match own with
      | some t =>
        if comesFirst t deadline && comesFirst t signal then (.own, { c with now := t })
        else pending c deadline signal
      | none => pending c deadline signal
where
  /-- Waits until the deadline or the cancellation. -/
  pending (c : Clock) (deadline signal : Option Nat) : Wake × Clock :=
    match deadline, signal with
    | some d, signal =>
      if comesFirst d signal then (.deadline, { c with now := d })
      else (.cancellation, { c with now := signal.getD c.now, cancelled := true })
    | none, some s => (.cancellation, { c with now := s, cancelled := true })
    | none, none => (.nothing, c)

end Clock

namespace Activity

variable {α : Type}

/-- How a wait ended that was not ended by one's own time. -/
def cutShort : Clock.Wake → Ended α
  | .deadline => .expired
  | .cancellation => .interrupted
  | _ => .stalled

/-- An activity under a clock that has been started. -/
def run (deadline : Option Nat) (c : Clock) : Activity α → Ended α × Clock
  | .done a => (.returned a, c)
  | .panic m => (.panicked (panicText m), c)
  | .sleep ms next =>
    if ms = 0 then run deadline c next
    else match c.wait deadline (some (c.now + ms)) with
      | (.own, c) => run deadline c next
      | (w, c) => (cutShort w, c)
  | .cancel next => run deadline { c with cancelled := true } next
  | .awaitCancel next =>
    if c.cancelled then run deadline c next
    else match c.wait deadline none with
      | (w, c) => (cutShort w, c)
  | .ask next => run deadline c (next c.cancelled)
  | .never => match c.wait deadline none with
    | (w, c) => (cutShort w, c)

/-- An activity that is started unless the run is cancelled. -/
def start (deadline : Option Nat) (c : Clock) (a : Activity α) : Ended α × Clock :=
  let c := c.look
  if c.cancelled then (.interrupted, c) else a.run deadline c

end Activity

end Conductor

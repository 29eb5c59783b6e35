import Conductor.Tool.Basic

/-!
# Rehearsed tools

A tool that plays a script: every invocation plays the next outcome of a list, and the last one is
played again and again.

* `Outcome.activity` : what the body does for an outcome;
* `Outcome.play` : the body of a script.
-/

namespace Conductor

/-- What a rehearsed tool does in one invocation. -/
inductive Outcome where
  | output (v : Json)
  /-- Gives its arguments back. -/
  | arguments
  /-- Gives its context back. -/
  | context
  | failure (f : Failure)
  | panic (message : Option String)
  | sleep (ms : Nat) (next : Outcome)
  | cancelThen (next : Outcome)
  | awaitCancel (next : Outcome)
  deriving Inhabited

namespace Outcome

/-- The context of an invocation as a value. -/
def contextJson (ctx : ToolContext) (cancelled : Bool) : Json :=
  .ofMembers
    [("attempt", .nat ctx.attempt), ("working_dir", .string ctx.workingDir),
      ("env", .object (ctx.env.entries.map fun (k, v) => (k, .string v))),
      ("cancelled", .bool cancelled)]

/-- What the body does for an outcome. -/
def activity (args : Json) (ctx : ToolContext) : Outcome → Activity (Except Failure Json)
  | .output v => .done (.ok v)
  | .arguments => .done (.ok args)
  | .context => .ask fun cancelled => .done (.ok (contextJson ctx cancelled))
  | .failure f => .done (.error f)
  | .panic m => .panic m
  | .sleep ms next => .sleep ms (activity args ctx next)
  | .cancelThen next => .cancel (activity args ctx next)
  | .awaitCancel next => .awaitCancel (activity args ctx next)

/-- The outcome of an invocation; an empty script gives the arguments back. -/
def nth (script : List Outcome) (invocation : Nat) : Outcome :=
  (script[invocation]?.or script.getLast?).getD .arguments

/-- The body of a script. -/
def play (script : List Outcome) (invocation : Nat) (args : Json) (ctx : ToolContext) :
    Activity (Except Failure Json) :=
  (Outcome.nth script invocation).activity args ctx

end Outcome

end Conductor

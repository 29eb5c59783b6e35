import Conductor.Store.Memory

/-!
# Rehearsed stores

A store in memory some of whose operations fail, and which keeps a log of all of them.

* `StateStore.brittle` : the store, and the operations that fail.
-/

namespace Conductor

namespace StateStore

/-- One operation of a brittle store: it is logged, and fails if it is broken. -/
def brittleStep {α : Type} (broken : List String) (name what : String)
    (op : Table → Except String α × Table) (p : Table × List String) :
    Except String α × Table × List String :=
  if broken.contains name then
    (.error (name ++ " is broken"), p.1, p.2 ++ [what ++ " broken"])
  else
    let (r, t) := op p.1
    (r, t, p.2 ++ [what])

/-- The turn that is stored under an id, as the log shows it. -/
def turnText (t : Table) (runId : String) : String :=
  ((t.get? runId).map fun s => toString s.turnIndex).getD "none"

/-- A store in memory with broken operations and a log. -/
def brittle (broken : List String) : StateStore (Table × List String) where
  load runId p :=
    brittleStep broken "load" ("load " ++ turnText p.1 runId) (memory.load runId) p
  save runId s p :=
    brittleStep broken "save" ("save " ++ toString s.turnIndex) (memory.save runId s) p
  clear runId p := brittleStep broken "clear" "clear" (memory.clear runId) p

end StateStore

end Conductor

import Conductor.Run.Session

/-!
# Stores in memory

The simplest store: a table from the ids of runs to their states.

* `StateStore.memory` : the store of a table;
* `StateStore.onFirst`, `StateStore.onSecond` : a store that uses one half of a pair.
-/

namespace Conductor

namespace StateStore

/-- A table of states, by the ids of their runs. -/
abbrev Table := Keyed RunState

/-- The store of a table. -/
def memory : StateStore Table where
  load runId t := (.ok (t.get? runId), t)
  save runId s t := (.ok (), t.insert runId s)
  clear runId t := (.ok (), t.erase runId)

variable {σ τ : Type}

/-- A store that keeps its states in the first half of a pair. -/
def onFirst (st : StateStore σ) : StateStore (σ × τ) where
  load runId p := let (r, a) := st.load runId p.1; (r, a, p.2)
  save runId s p := let (r, a) := st.save runId s p.1; (r, a, p.2)
  clear runId p := let (r, a) := st.clear runId p.1; (r, a, p.2)

/-- A store that keeps its states in the second half of a pair. -/
def onSecond (st : StateStore τ) : StateStore (σ × τ) where
  load runId p := let (r, b) := st.load runId p.2; (r, p.1, b)
  save runId s p := let (r, b) := st.save runId s p.2; (r, p.1, b)
  clear runId p := let (r, b) := st.clear runId p.2; (r, p.1, b)

end StateStore

end Conductor

import Conductor.Run.Session

/-!
# Computations on the outside

How a computation that acts on the outside is taken apart again from what it has given.

* `Outside.run_bind_eq` : a computation in two parts;
* `Outside.run_bind_ok` : a computation that goes on only after a success, and has succeeded;
* `Outside.exists_of_run_map` : a computation whose answer is known in part;
* `Session.events` : the events among what a run has done.
-/

namespace Conductor

namespace Outside

variable {σ α β ε : Type} {s s' : Session σ}

theorem run_bind (m : Outside σ α) (f : α → Outside σ β) (s : Session σ) :
    (m >>= f).run s = (f (m.run s).1).run (m.run s).2 := rfl

theorem run_bind_eq {m : Outside σ α} {f : α → Outside σ β} {b : β} :
    (m >>= f).run s = (b, s') ↔ ∃ x s₁, m.run s = (x, s₁) ∧ (f x).run s₁ = (b, s') := by
  rw [run_bind]
  refine ⟨fun h => ⟨_, _, rfl, h⟩, ?_⟩
  rintro ⟨x, s₁, hm, hf⟩
  rw [hm]
  exact hf

theorem run_pure_eq {a b : α} :
    (pure a : Outside σ α).run s = (b, s') ↔ a = b ∧ s = s' :=
  Prod.mk.injEq .. ▸ Iff.rfl

theorem run_ok_eq {a b : α} :
    (pure (.ok a) : Outside σ (Except ε α)).run s = (.ok b, s') ↔ a = b ∧ s = s' := by
  rw [run_pure_eq, Except.ok.injEq]

/-- A computation that passes a failure of its first part on, and has succeeded. -/
theorem run_bind_ok {m : Outside σ (Except ε α)} {f : Except ε α → Outside σ (Except ε β)} {b : β}
    (h : (m >>= f).run s = (.ok b, s')) (hf : ∀ e, f (.error e) = pure (.error e)) :
    ∃ x s₁, m.run s = (.ok x, s₁) ∧ (f (.ok x)).run s₁ = (.ok b, s') := by
  obtain ⟨e, s₁, hm, h⟩ := run_bind_eq.1 h
  cases e with
  | error e =>
    rw [hf] at h
    cases (run_pure_eq.1 h).1
  | ok x => exact ⟨x, s₁, hm, h⟩

/-- What is read off the answer of a computation is read off some answer. -/
theorem exists_of_run_map {m : Outside σ (Option α)} {f : α → β} {b : β}
    (h : (m.run s).1.map f = some b) : ∃ x s', m.run s = (some x, s') ∧ f x = b := by
  obtain ⟨x, hx, hb⟩ := Option.map_eq_some_iff.1 h
  exact ⟨x, _, Prod.ext hx rfl, hb⟩

end Outside

/-- The event that a happening tells to the subscribers. -/
def Happening.event? : Happening → Option Event
  | .emitted e => some e
  | _ => none

/-- The events that have been told, in order. -/
def Session.events {σ : Type} (s : Session σ) : List Event := s.trace.filterMap Happening.event?

/-- That a run has become cancelled is no event. -/
@[simp] theorem Session.events_withClock {σ : Type} (s : Session σ) (c : Clock) :
    (s.withClock c).events = s.events := by
  unfold withClock events
  dsimp only
  split
  · exact (List.filterMap_append ..).trans (List.append_nil _)
  · rfl

end Conductor

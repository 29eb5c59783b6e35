import Conductor.Proofs.Run.Course
import Conductor.Proofs.Run.Plain

/-!
# What is stored during a turn

A turn asks models and makes calls, and all of this leaves what is stored alone. Only the three
operations on the store change it, and they stand outside the turn.

* `Outside.Spares` : a computation leaves what is stored alone;
* `Outside.Plain.spares` : **what is made of plain things leaves what is stored alone;**
* `Agent.store_of_step` : after a step of the loop only the new state has been stored;
* `Agent.store_of_halt` : the head of the loop leaves what is stored alone.
-/

namespace Conductor

namespace Outside

variable {σ α : Type}

/-- The computation leaves what is stored alone. -/
def Spares (m : Outside σ α) : Prop := ∀ s, (m.run s).2.store = s.store

theorem Spares.run_eq {m : Outside σ α} (h : Spares m) {s s' : Session σ} {x : α}
    (hm : m.run s = (x, s')) : s'.store = s.store := by
  rw [← h s, hm]

/-- **What is made of plain things leaves what is stored alone.** -/
theorem Plain.spares {m : Outside σ α} (h : Plain m) : Spares m := by
  induction h with
  | bind _ _ hm hf => exact fun s => (hf _ _).trans (hm s)
  | get _ _ hf => exact fun s => hf s s
  | pure | look | now | perform | note | write => exact fun _ => rfl

end Outside

open Outside

namespace Agent

/-! ### Steps of the loop, and what is around them -/

variable {σ : Type} {a : Agent σ} {st : StateStore σ} {runId : String} {policy : FailurePolicy}
  {state : RunState} {s s' : Session σ}

/-- A state that is not stored is not stored because the run is cancelled. -/
theorem store_of_save {e : Except StoreFault Unit}
    (h : (Outside.save (some st) runId state).run s = (e, s')) :
    s'.store = if s'.clock.cancelled then s.store else (st.save runId state s.store).2 := by
  obtain ⟨c, s₁, hl, h⟩ := run_bind_eq.1 h
  obtain ⟨hc, rfl⟩ := Prod.mk.inj hl
  cases c with
  | true =>
    obtain ⟨-, rfl⟩ := run_pure_eq.1 h
    exact (if_pos hc).symm
  | false =>
    obtain ⟨-, rfl⟩ := Prod.mk.inj h
    exact (if_neg (ne_of_eq_of_ne hc Bool.false_ne_true)).symm

/-- **After a completed step of the loop the new state is stored**, unless the run is cancelled, and
nothing else has changed in what is stored. A step that fails changes nothing. -/
theorem store_of_step (hstore : a.store = some st) {x : Except TurnFault TurnOutcome}
    (h : (a.step runId policy state).run s = (x, s')) :
    s'.store = match x with
      | .error _ => s.store
      | .ok o => if s'.clock.cancelled then s.store else (st.save runId o.next s.store).2 := by
  obtain ⟨_, s₁, he, h⟩ := run_bind_eq.1 h
  obtain ⟨started, s₂, hn, h⟩ := run_bind_eq.1 h
  obtain ⟨y, s₃, ht, h⟩ := run_bind_eq.1 h
  have hturn : s₃.store = s.store := by
    rw [(a.plain_turn runId policy state).spares.run_eq ht, Plain.now.spares.run_eq hn,
      (Plain.emit _).spares.run_eq he]
  cases y with
  | error f =>
    obtain ⟨rfl, rfl⟩ := run_pure_eq.1 h
    exact hturn
  | ok o =>
    obtain ⟨ended, s₄, hn', h⟩ := run_bind_eq.1 h
    obtain ⟨_, s₅, he', h⟩ := run_bind_eq.1 h
    obtain ⟨_, s₆, hsave, h⟩ := run_bind_eq.1 h
    obtain ⟨rfl, rfl⟩ := run_pure_eq.1 h
    rw [hstore] at hsave
    rw [store_of_save hsave, (Plain.emit _).spares.run_eq he', Plain.now.spares.run_eq hn', hturn]

theorem plain_halt? (left : Nat) (state : RunState) : Plain (a.halt? left state) := by
  refine .bind .look fun c => ?_
  cases c with
  | true => exact .pure _
  | false => exact .bind a.plain_readElapsed fun _ => .pure _

theorem store_of_halt {left : Nat} {r : Option String}
    (h : (a.halt? left state).run s = (r, s')) : s'.store = s.store :=
  (plain_halt? left state).spares.run_eq h

end Agent

end Conductor

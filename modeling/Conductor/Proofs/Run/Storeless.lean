import Conductor.Proofs.Looking
import Conductor.Proofs.Run.Course
import Conductor.Proofs.Run.Plain
import Conductor.Proofs.Run.Rehearsed
import Conductor.Rehearsal.Store

/-!
# Runs whose store is of no use

A run goes on as if it had no store, if its store has nothing for it: whether states are stored and
removed or not, the run takes no notice. The store is asked in a race with the cancellation, so that
every operation looks at the clock once more. A cancellation that comes after a number of looks
therefore comes after fewer of them in the run without a store, at the same point.

* `Session.Beside` : two outsides that differ only in what concerns the store;
* `Outside.Plain.shadows` : **what is made of plain things does the same in both;**
* `Agent.step_shadows`, `Agent.loop_shadows` : a turn whose state is stored, and the loop;
* `Agent.run_without_store` : **a run whose store has nothing for it is the run without a store.**
-/

namespace Conductor

/-! ### What does not concern the store -/

/-- It is none of the store, and not the cancellation, which is found sooner if there is a store. -/
def Happening.ofRun : Happening → Bool
  | .saved .. | .loaded .. | .cleared .. | .cancelled => false
  | _ => true

namespace Session

variable {σ : Type}

/-- What has been done apart from the store. -/
def record (s : Session σ) : List Happening := s.trace.filter Happening.ofRun

theorem record_withClock (s : Session σ) (c : Clock) : (s.withClock c).record = s.record := by
  unfold withClock record
  dsimp only
  split
  · exact (List.filter_append ..).trans (List.append_nil _)
  · rfl

theorem record_note (s : Session σ) (h : Happening) :
    ({ s with trace := s.trace ++ [h] } : Session σ).record =
      s.record ++ [h].filter Happening.ofRun :=
  List.filter_append ..

/-- The events are a part of what was done apart from the store. -/
theorem events_eq_record (s : Session σ) : s.events = s.record.filterMap Happening.event? := by
  rw [events, record, List.filterMap_filter]
  refine congrArg (s.trace.filterMap ·) (funext fun h => ?_)
  cases h <;> rfl

/-- The outsides differ only in what concerns the store. Their clocks are related in some way. -/
structure Beside (C : Option Nat → Clock → Clock → Prop) (k : Option Nat) (s r : Session σ) :
    Prop where
  clock : C k s.clock r.clock
  books : r.books = s.books
  record : r.record = s.record

/-- The outside was looked at once, and else only the store has been dealt with. -/
structure Unseen (s s' : Session σ) : Prop where
  clock : s'.clock = s.clock.look
  books : s'.books = s.books
  record : s'.record = s.record

end Session

namespace Outside

open Session (Beside)

variable {σ α β : Type} {C C' C'' : Option Nat → Clock → Clock → Prop}

/-- The second computation does the same beside the first one, like a shadow that knows beforehand
how many looks will be left. -/
def Shadows (C C' : Option Nat → Clock → Clock → Prop) (m m' : Outside σ α) (s : Session σ) :
    Prop :=
  Foresees (fun s : Session σ => s.clock.Allows) (Beside C) (Beside C') m m' s

namespace Shadows

variable {m m' : Outside σ α} {s : Session σ}

theorem pure (x : α) (s : Session σ) : Shadows C C (Pure.pure x) (Pure.pure x) s :=
  Conductor.Foresees.pure x s

theorem bind {f f' : α → Outside σ β} (hm : Shadows C C' m m' s)
    (hf : ∀ x s, Shadows C' C'' (f x) (f' x) s) : Shadows C C'' (m >>= f) (m' >>= f') s :=
  Conductor.Foresees.bind hm hf

/-- Where the second outside shows the same, it may as well trail behind. -/
theorem trailing (h : Shadows C Clock.Mirrors m m' s) : Shadows C Clock.Trails m m' s :=
  Conductor.Foresees.weaken h (fun _ _ _ => id) fun _ _ _ h => { h with clock := h.clock.toTrails }

/-- What is done to the clock alone. -/
theorem of_clock {f : StateM Clock α} (hf : Foresees Clock.Allows C C' f f s.clock) :
    Shadows C C' (fun s => ((f s.clock).1, s.withClock (f s.clock).2) : Outside σ α)
      (fun s => ((f s.clock).1, s.withClock (f s.clock).2)) s := by
  rintro x s' k' h hk'
  obtain ⟨rfl, rfl⟩ := Prod.mk.inj h
  obtain ⟨k, hk, hforeseen⟩ := hf _ _ k' rfl hk'
  refine ⟨k, hk, fun r hr => ?_⟩
  obtain ⟨c', hc', hclock⟩ := hforeseen r.clock hr.clock
  obtain ⟨hx, rfl⟩ := Prod.mk.inj hc'
  refine ⟨r.withClock (f r.clock).2, Prod.ext hx rfl, hclock, hr.books, ?_⟩
  rw [Session.record_withClock, Session.record_withClock, hr.record]

/-- What leaves the clock alone. -/
theorem of_modify (f : Session σ → Session σ) (hclock : ∀ s, (f s).clock = s.clock)
    (hf : ∀ s r, r.books = s.books → r.record = s.record →
      (f r).books = (f s).books ∧ (f r).record = (f s).record) (s : Session σ) :
    Shadows C C (modify f : Outside σ PUnit) (modify f) s := by
  rintro x s' k' h hk'
  obtain ⟨rfl, rfl⟩ := Prod.mk.inj h
  have hallowed : s.clock.Allows k' := hclock s ▸ (show (f s).clock.Allows k' from hk')
  refine ⟨k', hallowed, fun r hr => ⟨f r, rfl, ?_⟩⟩
  obtain ⟨hbooks, hrecord⟩ := hf s r hr.books hr.record
  exact ⟨by rw [hclock, hclock]; exact hr.clock, hbooks, hrecord⟩

end Shadows

/-- **What is made of plain things does the same beside it.** -/
theorem Plain.shadows {m : Outside σ α} (h : Plain m) (s : Session σ) :
    Shadows Clock.Mirrors Clock.Mirrors m m s := by
  induction h generalizing s with
  | pure x => exact .pure x s
  | bind _ _ hm hf => exact (hm s).bind fun x s => hf x s
  | look =>
    exact .of_clock ((Clock.looking_foresees s.clock).weaken (fun _ _ _ h => h.toTrails)
      fun _ _ _ => id)
  | now =>
    rintro x s' k' h hk'
    obtain ⟨rfl, rfl⟩ := Prod.mk.inj h
    exact ⟨k', hk', fun r hr => ⟨r, Prod.ext hr.clock.now rfl, hr⟩⟩
  | perform deadline x => exact .of_clock (x.running_foresees deadline s.clock)
  | note h =>
    refine .of_modify (fun s => { s with trace := s.trace ++ [h] }) (fun _ => rfl)
      (fun s r hbooks hrecord => ⟨hbooks, ?_⟩) s
    rw [Session.record_note, Session.record_note, hrecord]
  | get hf hbooks ih =>
    intro x s' k' h hk'
    obtain ⟨k, hk, hforeseen⟩ := ih s s x s' k' h hk'
    refine ⟨k, hk, fun r hr => ?_⟩
    obtain ⟨r', hr', hbeside⟩ := hforeseen r hr
    exact ⟨r', by rwa [← hbooks s r hr.books] at hr', hbeside⟩
  | write f =>
    refine .of_modify (fun s => s.withBooks (f s.books)) (fun _ => rfl)
      (fun s r hbooks hrecord => ⟨?_, hrecord⟩) s
    change f r.books = f s.books
    rw [hbooks]

/-! ### The operations of the store -/

section Store

variable {C : Option Nat → Clock → Clock → Prop} {m : Outside σ α} {x : α} {s s' : Session σ}

/-- What concerns only the store is done beside nothing at all. -/
theorem Shadows.of_unnoticed (h : m.run s = (x, s')) (hclock : s'.clock = s.clock)
    (hbooks : s'.books = s.books) (hrecord : s'.record = s.record) :
    Shadows C C m (Pure.pure x) s := by
  rintro y s'' k' h' hk'
  obtain ⟨rfl, rfl⟩ := Prod.mk.inj (h.symm.trans h')
  have hallowed : s.clock.Allows k' := hclock ▸ (show s'.clock.Allows k' from hk')
  refine ⟨k', hallowed, fun r hr => ⟨r, rfl, ?_⟩⟩
  exact ⟨hclock ▸ hr.clock, hr.books.trans hbooks.symm, hr.record.trans hrecord.symm⟩

/-- If the clock is looked at for it, the other outside may trail behind. -/
theorem Shadows.of_unseen (h : m.run s = (x, s')) (hs : s.Unseen s') :
    Shadows Clock.Mirrors Clock.Trails m (Pure.pure x) s := by
  rintro y s'' k' h' hk'
  obtain ⟨rfl, rfl⟩ := Prod.mk.inj (h.symm.trans h')
  have hallowed : s.clock.look.Allows k' := hs.clock ▸ (show s'.clock.Allows k' from hk')
  obtain ⟨k, hk, htrails⟩ := Clock.look_trails s.clock k' hallowed
  refine ⟨k, hk, fun r hr => ⟨r, rfl, ?_⟩⟩
  exact ⟨hs.clock ▸ htrails _ hr.clock, hr.books.trans hs.books.symm,
    hr.record.trans hs.record.symm⟩

/-- **A store that is asked for a state, or given one, is not seen by the run.** -/
theorem unseen_of_ask {h : Happening} (hh : h.ofRun = false) {op : σ → Except String α × σ}
    {e : Except StoreFault α}
    (hrun : (Outside.look >>= fun c =>
      if c then Pure.pure (.error .cancelled) else operate h op).run s = (e, s')) :
    s.Unseen s' := by
  obtain ⟨c, s₁, hl, hrun⟩ := run_bind_eq.1 hrun
  obtain ⟨-, rfl⟩ := Prod.mk.inj hl
  cases c with
  | true =>
    obtain ⟨-, rfl⟩ := run_pure_eq.1 hrun
    exact ⟨rfl, rfl, Session.record_withClock ..⟩
  | false =>
    obtain ⟨-, rfl⟩ := Prod.mk.inj hrun
    refine ⟨rfl, rfl, (Session.record_note _ h).trans ?_⟩
    rw [Session.record_withClock, List.filter_cons_of_neg (by simp [hh]), List.filter_nil,
      List.append_nil]

end Store

end Outside

namespace Agent

open Outside

variable {σ : Type} {a : Agent σ} {st : StateStore σ} {runId : String} {policy : FailurePolicy}
  {goal : Goal} {budget : Budget}

/-- The agent without its store. -/
def storeless (a : Agent σ) : Agent σ := { a with store := none }

/-! ### The run without a store -/

/-- What a run finds in its store is what the store has. -/
theorem load_eq_ok {s s' : Session σ} {x : Option RunState}
    (h : (Outside.load (some st) runId).run s = (.ok x, s')) :
    (st.load runId s.store).1 = .ok x := by
  obtain ⟨c, s₁, hl, h⟩ := run_bind_eq.1 h
  obtain ⟨-, rfl⟩ := Prod.mk.inj hl
  cases c with
  | true => cases (run_pure_eq.1 h).1
  | false =>
    have hx : ((st.load runId s.store).1.mapError .failed : Except StoreFault _) = .ok x :=
      congrArg Prod.fst h
    cases hanswer : (st.load runId s.store).1 with
    | error message =>
      rw [hanswer] at hx
      cases hx
    | ok y =>
      rw [hanswer] at hx
      exact congrArg Except.ok (Except.ok.inj hx)

/-- **A run begins afresh if its store has nothing for it.** -/
theorem begin_shadows {s : Session σ} (hstore : a.store = some st)
    (hload : ∀ saved, (st.load runId s.store).1 ≠ .ok (some saved)) :
    Shadows Clock.Mirrors Clock.Trails (a.begin_ runId goal budget)
      (a.storeless.begin_ runId goal budget) s := by
  rcases hloaded : (Outside.load (some st) runId).run s with ⟨e, s₁⟩
  have hbegin : (a.begin_ runId goal budget).run s = (.initial goal budget, s₁) := by
    rw [begin_, hstore, run_bind, hloaded]
    split
    next saved heq =>
      obtain rfl : e = .ok (some saved) := heq
      exact absurd (load_eq_ok hloaded) (hload saved)
    next => rfl
  exact .of_unseen hbegin (unseen_of_ask rfl hloaded)

/-- A state that is stored leaves no mark on the run. -/
theorem save_shadows {α : Type} (x : α) (state : RunState) (s : Session σ) :
    Shadows Clock.Mirrors Clock.Trails
      (Outside.save a.store runId state >>= fun _ => pure x)
      (Outside.save a.storeless.store runId state >>= fun _ => pure x) s := by
  have hnothing : (Outside.save a.storeless.store runId state >>= fun _ => pure x) =
      (pure x : Outside σ α) := rfl
  rw [hnothing]
  cases hstore : a.store with
  | none => exact (Shadows.pure x s).trailing
  | some st =>
    rcases hsave : (Outside.save (some st) runId state).run s with ⟨e, s'⟩
    have hrun : (Outside.save (some st) runId state >>= fun _ => pure x).run s = (x, s') :=
      run_bind_eq.2 ⟨e, s', hsave, rfl⟩
    exact .of_unseen hrun (unseen_of_ask rfl hsave)

theorem clear_shadows {α : Type} (x : α) (s : Session σ) :
    Shadows Clock.Trails Clock.Trails
      (Outside.clear a.store runId >>= fun _ => pure x)
      (Outside.clear a.storeless.store runId >>= fun _ => pure x) s := by
  have hnothing : (Outside.clear a.storeless.store runId >>= fun _ => pure x) =
      (pure x : Outside σ α) := rfl
  rw [hnothing]
  cases hstore : a.store with
  | none => exact .pure x s
  | some st =>
    rcases hclear : (Outside.clear (some st) runId).run s with ⟨e, s'⟩
    have hrun : (Outside.clear (some st) runId >>= fun _ => pure x).run s = (x, s') :=
      run_bind_eq.2 ⟨e, s', hclear, rfl⟩
    obtain ⟨-, rfl⟩ := Prod.mk.inj hclear
    exact .of_unnoticed hrun rfl rfl ((Session.record_note s _).trans (List.append_nil _))

variable (a runId policy)

/-- **A turn goes on beside itself whether its state is stored or not.** -/
theorem step_shadows (state : RunState) (s : Session σ) :
    Shadows Clock.Mirrors Clock.Trails (a.step runId policy state)
      (a.storeless.step runId policy state) s := by
  refine .bind ((Plain.emit _).shadows s) fun _ s => .bind (Plain.now.shadows s) fun started s => ?_
  refine .bind ((a.plain_turn runId policy state).shadows s) fun e s => ?_
  cases e with
  | error f => exact (Shadows.pure _ s).trailing
  | ok o =>
    refine .bind (Plain.now.shadows s) fun ended s => .bind ((Plain.emit _).shadows s) fun _ s => ?_
    exact save_shadows (Except.ok o) o.next s

theorem halt?_shadows (left : Nat) (state : RunState) (s : Session σ) :
    Shadows Clock.Trails Clock.Mirrors (a.halt? left state) (a.storeless.halt? left state) s := by
  refine .bind (.of_clock (Clock.looking_foresees s.clock)) fun c s => ?_
  cases c with
  | true => exact .pure _ s
  | false => exact .bind (a.plain_readElapsed.shadows s) fun _ s => .pure _ s

/-- **The loop goes on beside itself without a store.** -/
theorem loop_shadows (left : Nat) (state : RunState) (s : Session σ) :
    Shadows Clock.Trails Clock.Trails (a.loop runId policy left state)
      (a.storeless.loop runId policy left state) s := by
  induction left generalizing state s with
  | zero =>
    rw [loop_zero, loop_zero]
    exact .bind (a.halt?_shadows 0 state s) fun r s => (Shadows.pure _ s).trailing
  | succ left ih =>
    rw [loop_succ, loop_succ]
    refine .bind (a.halt?_shadows (left + 1) state s) fun r s => ?_
    cases r with
    | some r => exact (Shadows.pure _ s).trailing
    | none =>
      refine .bind (a.step_shadows runId policy state s) fun e s => ?_
      cases e with
      | error f => exact .pure _ s
      | ok o =>
        simp only [afterStep]
        split
        · exact .pure _ s
        · exact ih o.next s

variable {a runId policy}

/-- **A whole run goes on beside itself without a store.** -/
theorem run_shadows {s : Session σ} (hstore : a.store = some st)
    (hload : ∀ saved, (st.load runId s.store).1 ≠ .ok (some saved)) :
    Shadows Clock.Mirrors Clock.Trails (a.run runId goal budget policy)
      (a.storeless.run runId goal budget policy) s := by
  refine .bind (begin_shadows hstore hload) fun first s => ?_
  refine .bind (a.loop_shadows runId policy _ first s) fun ⟨v, final⟩ s => ?_
  cases v with
  | none => exact .pure _ s
  | some v => exact clear_shadows _ s

/-- **A run whose store has nothing for it is the run without a store**, however often states are
not stored or not removed: the answer is the same, the subscribers are told the same, and models and
tools are asked the same. A signal that comes after a number of looks has to come after fewer of them
where no store looks at the clock; every other signal is the same. -/
theorem run_without_store {s : Session σ} (hstore : a.store = some st)
    (hload : ∀ saved, (st.load runId s.store).1 ≠ .ok (some saved)) (goal : Goal) (budget : Budget)
    (policy : FailurePolicy) :
    ∃ signal : Signal, signal.NoLater s.clock.signal ∧ ∃ answer s' r',
      (a.run runId goal budget policy).run s = (answer, s') ∧
      ({ a with store := none }.run runId goal budget policy).run
        { s with clock := s.clock.withSignal signal } = (answer, r') ∧
      r'.events = s'.events ∧ r'.bus = s'.bus ∧ r'.record = s'.record := by
  rcases hrun : (a.run runId goal budget policy).run s with ⟨answer, s'⟩
  obtain ⟨k, hk, hshadows⟩ := run_shadows hstore hload _ _ _ hrun s'.clock.allows_looksLeft
  obtain ⟨signal, hsignal, hmirrors⟩ := Clock.exists_mirrors hk
  obtain ⟨r', hrun', hbeside⟩ := hshadows
    { s with clock := s.clock.withSignal signal } ⟨hmirrors, rfl, rfl⟩
  refine ⟨signal, hsignal, answer, s', r', rfl, hrun', ?_, ?_, hbeside.record⟩
  · rw [Session.events_eq_record, Session.events_eq_record, hbeside.record]
  · exact congrArg Session.Books.bus hbeside.books

open StateStore (Table)

/-- Calls a tool that fails, and stops. Nothing that its store is told is ever done. -/
def unkept : Agent (Table × List String) :=
  { Agent.rehearsed [.rehearsed "fetch" [.failure (.failed "no route")]]
      [.calls "fetch", .stops "nothing left to do"] with
    store := some (.brittle ["load", "save", "clear"]) }

/-- An outside that is cancelled by the fifth look. -/
def fifthLook : Session (Table × List String) :=
  .start (.start false (.afterLooks 4)) [.channel] (.empty, [])

theorem run_without_store_unkept :
    ∃ signal : Signal, signal.NoLater (.afterLooks 4) ∧ ∃ answer s' r',
      (unkept.run "run" .rehearsed .standard .standard).run fifthLook = (answer, s') ∧
      ({ unkept with store := none }.run "run" .rehearsed .standard .standard).run
        { fifthLook with clock := fifthLook.clock.withSignal signal } = (answer, r') ∧
      r'.events = s'.events ∧ r'.bus = s'.bus ∧ r'.record = s'.record := by
  have hbroken : ((StateStore.brittle ["load", "save", "clear"]).load "run" fifthLook.store).1 =
      .error "load is broken" := rfl
  have hstore : unkept.store = some (.brittle ["load", "save", "clear"]) := rfl
  exact run_without_store hstore (fun saved h => by cases hbroken.symm.trans h) .rehearsed .standard
    .standard

end Agent

end Conductor

import Conductor.Proofs.Activity

/-!
# How waits and activities end

A wait is ended by one's own time, by the deadline, or by the cancellation, or it never ends. What
has ended it shows in the clock: after a cancellation the run is cancelled, after one's own time it
is not. The same is then known of an activity, which is a number of waits one after the other.

* `Clock.Wakes`, `Clock.wait_wakes` : what a clock shows after a wait;
* `Activity.Ends`, `Activity.run_ends` : **what a clock shows after an activity;**
* `Activity.run_sleep` : a sleep comes to its end in a run that is not cancelled, or is interrupted
  by a signal.

The signal from outside stays the same, and a run that is cancelled stays cancelled.
-/

namespace Conductor

namespace Clock

/-- What is known of a clock after a wait that was ended in some way. -/
structure Wakes (deadline own : Option Nat) (c : Clock) (w : Wake) (c' : Clock) : Prop where
  signal : c'.signal = c.signal
  cancelled : c.cancelled = true → c'.cancelled = true
  byOwn : w = .own → own ≠ none ∧ c'.cancelled = false
  byDeadline : w = .deadline → deadline ≠ none
  byCancellation : w = .cancellation → c'.cancelled = true
  byNothing : w = .nothing → deadline = none ∧ own = none ∧ c'.cancelled = false

variable {c : Clock}

@[simp] theorem look_signal (c : Clock) : c.look.signal = c.signal := rfl

theorem look_cancelled (h : c.cancelled = true) : c.look.cancelled = true := by
  simp [look, h]

/-- The run is cancelled, or a signal can come from outside. -/
def Signalled (c : Clock) : Prop := c.cancelled = true ∨ c.signal ≠ .never

/-- Looking finds a run cancelled only if it was, or if a signal has come. -/
theorem signalled_of_look (h : c.look.cancelled = true) : c.Signalled := by
  by_cases hn : c.signal = .never
  · rw [look_of_never hn] at h
    exact .inl h
  · exact .inr hn

/-- Without a signal a wait comes to its own end. -/
theorem wait_of_never (hn : c.signal = .never) (hc : c.cancelled = false) (t : Nat) :
    (c.wait none (some t)).1 = .own := by
  have hl := look_of_never hn
  simp [wait, hl, hc, signalTime?, hn, comesFirst]

/-- The wait for one's own time is over here: something else comes before it, or there is none. -/
theorem pending_wakes {deadline own signal : Option Nat} (hc : c.cancelled = false)
    (hown : own = none ∨ deadline ≠ none ∨ signal ≠ none) :
    Wakes deadline own c (wait.pending c deadline signal).1
      (wait.pending c deadline signal).2 := by
  cases deadline with
  | some d =>
    by_cases hd : comesFirst d signal = true
    · constructor <;> simp [wait.pending, hd]
    · constructor <;> simp [wait.pending, hd]
  | none =>
    cases signal with
    | some t => constructor <;> simp [wait.pending]
    | none =>
      have ho : own = none := by simpa using hown
      constructor <;> simp [wait.pending, hc, ho]

/-- **What a clock shows after a wait.** -/
theorem wait_wakes (c : Clock) (deadline own : Option Nat) :
    Wakes deadline own c (c.wait deadline own).1 (c.wait deadline own).2 := by
  unfold wait
  by_cases hp : deadline.any (· ≤ c.now) = true
  · rw [if_pos hp]
    have hd : deadline ≠ none := by
      intro h
      simp [h] at hp
    constructor <;> simp [hd]
  rw [if_neg hp]
  by_cases hc : c.look.cancelled = true
  · simp only [hc, if_true]
    constructor <;> simp [hc]
  have hl : c.look.cancelled = false := by simpa using hc
  have hopen : c.cancelled = false := Bool.eq_false_iff.2 fun h => hc (look_cancelled h)
  -- what is left to wait for, once the cancellation has been looked at
  have hpending (h : own = none ∨ deadline ≠ none ∨ c.look.signalTime? ≠ none) :
      Wakes deadline own c (wait.pending c.look deadline c.look.signalTime?).1
        (wait.pending c.look deadline c.look.signalTime?).2 :=
    { pending_wakes hl h with cancelled := by simp [hopen] }
  simp only [hl, Bool.false_eq_true, if_false]
  cases own with
  | none => exact hpending (.inl rfl)
  | some t =>
    by_cases ho : (comesFirst t deadline && comesFirst t c.look.signalTime?) = true
    · simp only [ho, if_true]
      constructor <;> simp [hopen]
    · simp only [ho]
      refine hpending (.inr ?_)
      cases deadline with
      | some d => exact .inl nofun
      | none =>
        cases hs : c.look.signalTime? with
        | some u => exact .inr nofun
        | none => simp [hs, comesFirst] at ho

end Clock

namespace Activity

open Clock

variable {α : Type}

/-- What is known of a clock after an activity that has ended in some way. -/
structure Ends (deadline : Option Nat) (c : Clock) (e : Ended α) (c' : Clock) : Prop where
  signal : c'.signal = c.signal
  cancelled : c.cancelled = true → c'.cancelled = true
  interrupted : e = .interrupted → c'.cancelled = true
  expired : e = .expired → deadline ≠ none
  stalled : e = .stalled → deadline = none ∧ c'.cancelled = false

variable {deadline own : Option Nat} {c c₁ c' : Clock} {w : Wake}

/-- A wait that was not ended by one's own time is the end of the activity. -/
theorem ends_cutShort (h : Wakes deadline own c w c') (hw : w ≠ .own) :
    Ends deadline c (cutShort w : Ended α) c' := by
  cases w with
  | own => exact absurd rfl hw
  | deadline => exact ⟨h.signal, h.cancelled, nofun, fun _ => h.byDeadline rfl, nofun⟩
  | cancellation => exact ⟨h.signal, h.cancelled, fun _ => h.byCancellation rfl, nofun, nofun⟩
  | nothing =>
    obtain ⟨hd, -, hc⟩ := h.byNothing rfl
    exact ⟨h.signal, h.cancelled, nofun, nofun, fun _ => ⟨hd, hc⟩⟩

/-- A wait for nothing of one's own is the end of the activity. -/
theorem ends_wait_none (c : Clock) (deadline : Option Nat) :
    Ends deadline c (cutShort (c.wait deadline none).1 : Ended α) (c.wait deadline none).2 :=
  have h := wait_wakes c deadline none
  ends_cutShort h fun hw => (h.byOwn hw).1 rfl

/-- An activity that goes on after a wait. -/
theorem Ends.after {e : Ended α} (h : Wakes deadline own c w c₁) (h' : Ends deadline c₁ e c') :
    Ends deadline c e c' :=
  { h' with
    signal := h'.signal.trans h.signal
    cancelled := fun hc => h'.cancelled (h.cancelled hc) }

/-- **What a clock shows after an activity.** -/
theorem run_ends (x : Activity α) (deadline : Option Nat) (c : Clock) :
    Ends deadline c (x.run deadline c).1 (x.run deadline c).2 := by
  induction x generalizing c with
  | done a => exact ⟨rfl, id, nofun, nofun, nofun⟩
  | panic m => exact ⟨rfl, id, nofun, nofun, nofun⟩
  | sleep ms next ih =>
    simp only [run]
    by_cases hz : ms = 0
    · rw [if_pos hz]
      exact ih c
    rw [if_neg hz]
    have hw := wait_wakes c deadline (some (c.now + ms))
    rcases hp : c.wait deadline (some (c.now + ms)) with ⟨w, c₁⟩
    rw [hp] at hw
    cases w with
    | own => exact .after hw (ih c₁)
    | deadline | cancellation | nothing => exact ends_cutShort hw (by simp)
  | cancel next ih =>
    have h := ih { c with cancelled := true }
    exact { h with cancelled := fun _ => h.cancelled rfl }
  | awaitCancel next ih =>
    simp only [run]
    by_cases hc : c.cancelled = true
    · rw [if_pos hc]
      exact ih c
    · rw [if_neg hc]
      exact ends_wait_none c deadline
  | ask next ih => exact ih c.cancelled c
  | never => exact ends_wait_none c deadline

/-- **A sleep without a deadline comes to its end in a run that is not cancelled, or it is
interrupted by a signal.** -/
theorem run_sleep (ms : Nat) (a : α) {c : Clock} (hc : c.cancelled = false) :
    ∃ c', ((sleep ms (done a)).run none c = (.returned a, c') ∧ c'.cancelled = false) ∨
      ((sleep ms (done a)).run none c = (.interrupted, c') ∧ c'.cancelled = true ∧
        c.signal ≠ .never) := by
  by_cases hz : ms = 0
  · exact ⟨c, .inl ⟨by simp [run, hz], hc⟩⟩
  have hw := wait_wakes c none (some (c.now + ms))
  have hown (hn : c.signal = .never) := wait_of_never hn hc (c.now + ms)
  simp only [run, if_neg hz]
  rcases hp : c.wait none (some (c.now + ms)) with ⟨w, c₁⟩
  rw [hp] at hw hown
  refine ⟨c₁, ?_⟩
  cases w with
  | own => exact .inl ⟨rfl, (hw.byOwn rfl).2⟩
  | deadline => exact absurd rfl (hw.byDeadline rfl)
  | cancellation => exact .inr ⟨rfl, hw.byCancellation rfl, fun hn => by cases hown hn⟩
  | nothing => cases (hw.byNothing rfl).2.1

end Activity

end Conductor

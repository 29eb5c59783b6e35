import Conductor.Activity

/-!
# Activities at another time

What a piece of work does depends on how long things take, never on when they happen. Without a
signal from outside, two clocks that differ only in the time they show stay so.

* `Clock.Lags` : the second clock is behind the first, and otherwise like it;
* `Clock.wait_lags`, `Activity.run_lags` : **waits and activities end in the same way under
  both.**
-/

namespace Conductor

namespace Clock

/-- The second clock is behind the first one by a number of milliseconds. No signal will come. -/
structure Lags (lag : Nat) (c c' : Clock) : Prop where
  now : c.now = lag + c'.now
  cancelled : c.cancelled = c'.cancelled
  never : c.signal = .never
  never' : c'.signal = .never

variable {lag : Nat} {c c' : Clock}

/-- The same has come of both, and the one clock is still behind the other. -/
def LagsWith {β : Type} (lag : Nat) (p p' : β × Clock) : Prop := p.1 = p'.1 ∧ p.2.Lags lag p'.2

theorem look_of_never (h : c.signal = .never) : c.look = { c with looks := c.looks + 1 } := by
  simp [look, h]

theorem signalTime?_of_never (h : c.signal = .never) : c.signalTime? = none := by
  simp [signalTime?, h]

theorem Lags.look (h : c.Lags lag c') : c.look.Lags lag c'.look := by
  rw [look_of_never h.never, look_of_never h.never']
  exact ⟨h.now, h.cancelled, h.never, h.never'⟩

theorem pending_lags {deadline : Option Nat} (h : c.Lags lag c') :
    LagsWith lag (wait.pending c (deadline.map (lag + ·)) none)
      (wait.pending c' deadline none) := by
  cases deadline with
  | none => exact ⟨rfl, h⟩
  | some d => exact ⟨rfl, rfl, h.cancelled, h.never, h.never'⟩

/-- **Waits end in the same way under both clocks.** -/
theorem wait_lags (h : c.Lags lag c') (deadline own : Option Nat) :
    LagsWith lag (c.wait (deadline.map (lag + ·)) (own.map (lag + ·))) (c'.wait deadline own) := by
  have hpast : (deadline.map (lag + ·)).any (· ≤ c.now) = deadline.any (· ≤ c'.now) := by
    cases deadline <;> simp [h.now]
  have hl := h.look
  simp only [wait, hpast, hl.cancelled, signalTime?_of_never hl.never,
    signalTime?_of_never hl.never']
  by_cases hp : deadline.any (· ≤ c'.now) = true
  · rw [if_pos hp, if_pos hp]
    exact ⟨rfl, h⟩
  rw [if_neg hp, if_neg hp]
  by_cases hc : c'.look.cancelled = true
  · rw [if_pos hc, if_pos hc]
    exact ⟨rfl, hl⟩
  rw [if_neg hc, if_neg hc]
  cases own with
  | none => exact pending_lags hl
  | some t =>
    have hfirst : comesFirst (lag + t) (deadline.map (lag + ·)) = comesFirst t deadline := by
      cases deadline <;> simp [comesFirst]
    have hnever (t : Nat) : comesFirst t none = true := rfl
    simp only [Option.map_some, hfirst, hnever, Bool.and_true]
    by_cases ho : comesFirst t deadline = true
    · rw [if_pos ho, if_pos ho]
      exact ⟨rfl, rfl, rfl, hl.never, hl.never'⟩
    · rw [if_neg ho, if_neg ho]
      exact pending_lags hl

end Clock

namespace Activity

open Clock

variable {α : Type} {lag : Nat} {c c' : Clock}

/-- **Activities end in the same way under both clocks.** -/
theorem run_lags (x : Activity α) (deadline : Option Nat) (h : c.Lags lag c') :
    LagsWith lag (x.run (deadline.map (lag + ·)) c) (x.run deadline c') := by
  induction x generalizing c c' with
  | done a => exact ⟨rfl, h⟩
  | panic m => exact ⟨rfl, h⟩
  | sleep ms next ih =>
    simp only [run]
    by_cases hz : ms = 0
    · rw [if_pos hz, if_pos hz]
      exact ih h
    · rw [if_neg hz, if_neg hz]
      have hw := wait_lags h deadline (some (c'.now + ms))
      rw [Option.map_some, ← Nat.add_assoc, ← h.now] at hw
      generalize c.wait (deadline.map (lag + ·)) (some (c.now + ms)) = p at hw
      generalize c'.wait deadline (some (c'.now + ms)) = p' at hw
      obtain ⟨w, c₁⟩ := p
      obtain ⟨w', c₁'⟩ := p'
      obtain ⟨rfl, hl⟩ := hw
      cases w with
      | own => exact ih hl
      | deadline | cancellation | nothing => exact ⟨rfl, hl⟩
  | cancel next ih => exact ih ⟨h.now, rfl, h.never, h.never'⟩
  | awaitCancel next ih =>
    simp only [run, h.cancelled]
    by_cases hc : c'.cancelled = true
    · rw [if_pos hc, if_pos hc]
      exact ih h
    · rw [if_neg hc, if_neg hc]
      have hw := wait_lags h deadline none
      exact ⟨congrArg cutShort hw.1, hw.2⟩
  | ask next ih =>
    simp only [run, h.cancelled]
    exact ih _ h
  | never =>
    have hw := wait_lags h deadline none
    exact ⟨congrArg cutShort hw.1, hw.2⟩

end Activity

end Conductor

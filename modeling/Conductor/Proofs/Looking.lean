import Conductor.Activity
import Mathlib.Data.Option.Basic

/-!
# Clocks that are looked at more often

A cancellation that comes after a number of looks comes sooner if somebody else looks at the clock
as well. A second clock, at which nobody else looks, is cancelled at the same point if its number of
looks is chosen well. Which number that is depends on what will happen until then, so it is found
from the end backwards.

* `Foresees` : for whatever is left after a computation there was something to be left before it,
  with which another computation does the same;
* `Clock.looksLeft` : how many looks are left before the cancellation;
* `Clock.Trails`, `Clock.Mirrors` : the second clock shows what the first one shows, or will at the
  next look;
* `Clock.exists_mirrors` : whatever number of looks may be left, there is a signal that leaves it;
* `Clock.wait_foresees`, `Activity.running_foresees` : **waits and activities end in the same way
  under both.**
-/

namespace Conductor

/-! ### Foresight -/

section Foresight

variable {S α β K : Type} {may : S → K → Prop} {P Q R : K → S → S → Prop}

/-- Whatever may be left after the first computation, something may be left before it with which the
second one gives the same, from what is related then, and leaves what is related again. -/
def Foresees (may : S → K → Prop) (P Q : K → S → S → Prop) (m m' : StateM S α) (s : S) : Prop :=
  ∀ x s' k', m.run s = (x, s') → may s' k' →
    ∃ k, may s k ∧ ∀ r, P k s r → ∃ r', m'.run r = (x, r') ∧ Q k' s' r'

namespace Foresees

variable {m m' : StateM S α} {f f' : α → StateM S β} {s : S}

theorem pure (x : α) (s : S) : Foresees may P P (Pure.pure x) (Pure.pure x) s := by
  intro y s' k' h hk'
  obtain ⟨rfl, rfl⟩ := Prod.mk.inj h
  exact ⟨k', hk', fun r hr => ⟨r, rfl, hr⟩⟩

/-- **Of two parts the second is looked at first.** -/
theorem bind (hm : Foresees may P Q m m' s) (hf : ∀ x s₁, Foresees may Q R (f x) (f' x) s₁) :
    Foresees may P R (m >>= f) (m' >>= f') s := by
  intro y s' k'' h hk''
  rcases hx : m.run s with ⟨x, s₁⟩
  have hrest : (f x).run s₁ = (y, s') := by
    rw [← h]
    change _ = (f (m.run s).1).run (m.run s).2
    rw [hx]
  obtain ⟨k', hk', hafter⟩ := hf x s₁ y s' k'' hrest hk''
  obtain ⟨k, hk, hbefore⟩ := hm x s₁ k' hx hk'
  refine ⟨k, hk, fun r hr => ?_⟩
  obtain ⟨r₁, h₁, hr₁⟩ := hbefore r hr
  obtain ⟨r', h', hr'⟩ := hafter r₁ hr₁
  refine ⟨r', ?_, hr'⟩
  change (f' (m'.run r).1).run (m'.run r).2 = _
  rw [h₁, h']

/-- The outsides may be related more closely before, and less closely after. -/
theorem weaken {P' Q' : K → S → S → Prop} (h : Foresees may P Q m m' s)
    (hP : ∀ k s r, P' k s r → P k s r) (hQ : ∀ k s r, Q k s r → Q' k s r) :
    Foresees may P' Q' m m' s := by
  intro x s' k' hm hk'
  obtain ⟨k, hk, hforeseen⟩ := h x s' k' hm hk'
  refine ⟨k, hk, fun r hr => ?_⟩
  obtain ⟨r', hm', hr'⟩ := hforeseen r (hP k s r hr)
  exact ⟨r', hm', hQ k' s' r' hr'⟩

end Foresees

end Foresight

/-- The point in time at which a signal comes, if it comes at one. -/
def Signal.time? : Signal → Option Nat
  | .atTime t => some t
  | _ => none

/-- The first signal comes in the same way as the second, and after no more looks. -/
def Signal.NoLater (x : Signal) : Signal → Prop
  | .afterLooks n => ∃ m ≤ n, x = .afterLooks m
  | y => x = y

theorem Signal.NoLater.refl : (x : Signal) → x.NoLater x
  | .never | .atTime _ => rfl
  | .afterLooks n => ⟨n, Nat.le_refl n, rfl⟩

namespace Clock

variable {c c' : Clock} {k : Option Nat}

/-- How many looks are left before the cancellation, if it comes after a number of them. -/
def looksLeft (c : Clock) : Option Nat :=
  match c.signal with
  | .afterLooks n => some (n - c.looks)
  | _ => none

theorem look_cancelled_eq (c : Clock) :
    c.look.cancelled = (c.cancelled || c.looksLeft == some 0) := by
  unfold look looksLeft
  cases c.signal with
  | afterLooks n =>
    rw [Bool.eq_iff_iff]
    simp [Nat.sub_eq_zero_iff_le]
  | never | atTime => simp

theorem looksLeft_look (c : Clock) : c.look.looksLeft = c.looksLeft.map (· - 1) := by
  unfold look looksLeft
  cases c.signal with
  | afterLooks n => exact congrArg some (Nat.sub_add_eq ..)
  | never | atTime => rfl

theorem signalTime?_eq (c : Clock) : c.signalTime? = c.signal.time?.map (max · c.now) := by
  unfold signalTime? Signal.time?
  cases c.signal <;> rfl

/-! ### Two clocks -/

/-- So many looks may be left under another clock: the cancellation comes in the same way, and after
no more looks. -/
def Allows (c : Clock) (k : Option Nat) : Prop :=
  c.cancelled = false → Option.Rel (· ≤ ·) k c.looksLeft

/-- The second clock shows what the first one shows, with so many looks left, but may be cancelled
only at the next look. -/
structure Trails (k : Option Nat) (c c' : Clock) : Prop where
  now : c'.now = c.now
  time : c'.signal.time? = c.signal.time?
  early : c.cancelled = false → c'.cancelled = false ∧ c'.looksLeft = k
  late : c.cancelled = true → c'.cancelled = true ∨ c'.looksLeft = some 0

/-- The second clock shows what the first one shows, with so many looks left. -/
structure Mirrors (k : Option Nat) (c c' : Clock) : Prop extends Trails k c c' where
  cancelled : c'.cancelled = c.cancelled

theorem allows_looksLeft (c : Clock) : c.Allows c.looksLeft := fun _ => by
  cases c.looksLeft with
  | none => exact .none
  | some n => exact .some (Nat.le_refl n)

theorem Mirrors.signalTime? (h : c.Mirrors k c') : c'.signalTime? = c.signalTime? := by
  rw [signalTime?_eq, signalTime?_eq, h.now, h.time]

/-- Of a clock that is cancelled it is of no consequence how many looks are left. -/
theorem Mirrors.of_cancelled (h : c.Mirrors k c') (hc : c.cancelled = true) (k' : Option Nat) :
    c.Mirrors k' c' where
  now := h.now
  time := h.time
  early hopen := absurd hc (ne_of_eq_of_ne hopen Bool.false_ne_true)
  late := h.late
  cancelled := h.cancelled

theorem Mirrors.at (h : c.Mirrors k c') (t : Nat) :
    Mirrors k { c with now := t } { c' with now := t } where
  now := rfl
  time := h.time
  early := h.early
  late := h.late
  cancelled := h.cancelled

theorem Mirrors.cancel (h : c.Mirrors k c') (t : Nat) :
    Mirrors k { c with now := t, cancelled := true } { c' with now := t, cancelled := true } where
  now := rfl
  time := h.time
  early hopen := Bool.noConfusion hopen
  late _ := .inl rfl
  cancelled := rfl

/-- The clock with another signal. -/
def withSignal (c : Clock) (signal : Signal) : Clock := { c with signal := signal }

/-- **Whatever number of looks may be left, there is a signal that leaves it.** -/
theorem exists_mirrors (h : c.Allows k) :
    ∃ signal : Signal, signal.NoLater c.signal ∧ c.Mirrors k (c.withSignal signal) := by
  have hmirrors (signal : Signal) (htime : signal.time? = c.signal.time?)
      (hleft : c.cancelled = false → (c.withSignal signal).looksLeft = k) :
      c.Mirrors k (c.withSignal signal) :=
    ⟨⟨rfl, htime, fun hopen => ⟨hopen, hleft hopen⟩, .inl⟩, rfl⟩
  by_cases hc : c.cancelled = false
  · have hleft := h hc
    unfold looksLeft at hleft
    cases hs : c.signal with
    | never | atTime =>
      rw [hs] at hleft
      cases hleft
      exact ⟨_, rfl, hmirrors _ (by rw [hs]) fun _ => rfl⟩
    | afterLooks n =>
      rw [hs] at hleft
      cases hleft with
      | @some j _ hle =>
        refine ⟨.afterLooks (n - (n - c.looks - j)), ⟨_, Nat.sub_le .., rfl⟩,
          hmirrors _ (by rw [hs]; rfl) fun _ => congrArg some ?_⟩
        change n - (n - c.looks - j) - c.looks = j
        omega
  · exact ⟨c.signal, .refl _, hmirrors _ rfl fun hopen => absurd hopen hc⟩

/-! ### Looking -/

/-- Looks at a clock. -/
def looking : StateM Clock Bool := fun c => (c.look.cancelled, c.look)

/-- **After a look the second clock shows what the first one shows.** Here it is found how many
looks were left: one more than after the look, or none if this look has found the cancellation. -/
theorem looking_foresees (c : Clock) :
    Foresees Allows Trails Mirrors looking looking c := by
  rintro x s' k' h hk'
  obtain ⟨rfl, rfl⟩ := Prod.mk.inj h
  have hlook (c' : Clock) : looking.run c' = (c'.look.cancelled, c'.look) := rfl
  -- what is left to show once it is known that both clocks show the same cancellation
  have hmirrors {k : Option Nat} {c' : Clock} (ht : c.Trails k c')
      (hc : c'.look.cancelled = c.look.cancelled)
      (hleft : c.look.cancelled = false → c'.look.looksLeft = k') :
      ∃ r', looking.run c' = (c.look.cancelled, r') ∧ c.look.Mirrors k' r' :=
    ⟨c'.look, by rw [hlook, hc], {
      now := ht.now
      time := ht.time
      early := fun hopen => ⟨hc.trans hopen, hleft hopen⟩
      late := fun h => .inl (hc.trans h)
      cancelled := hc }⟩
  cases hc : c.cancelled with
  | true =>
    have hlooked : c.look.cancelled = true := by rw [look_cancelled_eq, hc, Bool.true_or]
    refine ⟨c.looksLeft, c.allows_looksLeft, fun c' ht => hmirrors ht ?_ fun h => ?_⟩
    · rw [hlooked, look_cancelled_eq]
      rcases ht.late hc with h | h <;> simp [h]
    · rw [hlooked] at h
      cases h
  | false =>
    have hdue (c' : Clock) (hopen : c'.cancelled = false) :
        c'.look.cancelled = (c'.looksLeft == some 0) := by
      rw [look_cancelled_eq, hopen, Bool.false_or]
    cases hnone : c.looksLeft == some 0 with
    | true =>
      refine ⟨c.looksLeft, c.allows_looksLeft, fun c' ht => hmirrors ht ?_ fun h => ?_⟩
      · obtain ⟨hopen, hleft⟩ := ht.early hc
        rw [hdue c hc, hdue c' hopen, hleft]
      · rw [hdue c hc, hnone] at h
        cases h
    | false =>
      have hlooked : c.look.cancelled = false := by rw [hdue c hc, hnone]
      have hallowed := hk' hlooked
      rw [looksLeft_look] at hallowed
      refine ⟨k'.map (· + 1), fun _ => ?_, fun c' ht => hmirrors ht ?_ fun _ => ?_⟩
      · cases hl : c.looksLeft with
        | none =>
          rw [hl] at hallowed
          cases hallowed
          exact .none
        | some l =>
          rw [hl] at hallowed hnone
          cases hallowed with
          | some hle =>
            have hpos : l ≠ 0 := by simpa using hnone
            exact .some (Nat.add_le_of_le_sub (Nat.pos_of_ne_zero hpos) hle)
      · obtain ⟨hopen, hleft⟩ := ht.early hc
        rw [hlooked, hdue c' hopen, hleft]
        cases k' <;> simp
      · obtain ⟨-, hleft⟩ := ht.early hc
        rw [looksLeft_look, hleft]
        cases k' <;> rfl

/-- **Somebody else may look at the first clock**: then the second one may trail behind it. -/
theorem look_trails (c : Clock) :
    ∀ k', c.look.Allows k' → ∃ k, c.Allows k ∧ ∀ c', c.Mirrors k c' → c.look.Trails k' c' := by
  intro k' hk'
  cases hc : c.look.cancelled with
  | true =>
    refine ⟨c.looksLeft, c.allows_looksLeft,
      fun c' h => ⟨h.now, h.time, fun hopen => ?_, fun _ => ?_⟩⟩
    · rw [hc] at hopen
      cases hopen
    · rw [look_cancelled_eq] at hc
      cases hopen : c.cancelled with
      | true => exact .inl (h.cancelled.trans hopen)
      | false =>
        have hleft : c.looksLeft = some 0 := by simpa [hopen] using hc
        exact .inr ((h.early hopen).2.trans hleft)
  | false =>
    have hopen : c.cancelled = false := by
      rw [look_cancelled_eq] at hc
      exact (Bool.or_eq_false_iff.1 hc).1
    refine ⟨k', fun _ => ?_, fun c' h => ⟨h.now, h.time, fun _ => h.early hopen, fun h => ?_⟩⟩
    · have hallowed := hk' hc
      rw [looksLeft_look] at hallowed
      cases hl : c.looksLeft with
      | none => rwa [hl] at hallowed
      | some l =>
        rw [hl] at hallowed
        cases hallowed with
        | some hle => exact .some (Nat.le_trans hle (Nat.sub_le ..))
    · rw [hc] at h
      cases h

/-! ### Waiting -/

/-- What depends only on what a clock shows, and does not look at it, needs no foresight. -/
theorem foresees_of_shown {β : Type} {f : Clock → β × Clock}
    (hsame : ∀ c c' k, c.Mirrors k c' → (f c').1 = (f c).1 ∧ (f c).2.Mirrors k (f c').2)
    (hleft : ∀ c, (f c).2.cancelled = false →
      c.cancelled = false ∧ (f c).2.looksLeft = c.looksLeft) (c : Clock) :
    Foresees Allows Mirrors Mirrors (f : StateM Clock β) f c := by
  rintro x s' k' h hk'
  obtain ⟨rfl, rfl⟩ := Prod.mk.inj h
  cases hc : (f c).2.cancelled with
  | true =>
    refine ⟨c.looksLeft, c.allows_looksLeft, fun r hr => ⟨(f r).2, ?_, ?_⟩⟩
    · exact Prod.ext (hsame c r _ hr).1 rfl
    · exact (hsame c r _ hr).2.of_cancelled hc k'
  | false =>
    obtain ⟨hopen, heq⟩ := hleft c hc
    refine ⟨k', fun _ => heq ▸ hk' hc, fun r hr => ⟨(f r).2, ?_, (hsame c r k' hr).2⟩⟩
    exact Prod.ext (hsame c r k' hr).1 rfl

/-- Reads something that a clock shows. -/
def showing {β : Type} (f : Clock → β) : StateM Clock β := fun c => (f c, c)

theorem showing_foresees {β : Type} {f : Clock → β}
    (hsame : ∀ c c' k, c.Mirrors k c' → f c' = f c) (c : Clock) :
    Foresees Allows Mirrors Mirrors (showing f) (showing f) c :=
  foresees_of_shown (fun c c' k h => ⟨hsame c c' k h, h⟩) (fun _ h => ⟨h, rfl⟩) c

/-- Waits for what comes first, once the cancellation has been looked at. -/
def settle (deadline : Option Nat) (own : Nat → Option Nat) (c : Clock) : Wake × Clock :=
  match own c.now with
  | some t =>
    if comesFirst t deadline && comesFirst t c.signalTime? then (.own, { c with now := t })
    else wait.pending c deadline c.signalTime?
  | none => wait.pending c deadline c.signalTime?

/-- What a wait does, one thing after the other. -/
theorem wait_eq (deadline : Option Nat) (own : Nat → Option Nat) :
    (fun c => c.wait deadline (own c.now) : StateM Clock Wake) =
      showing (fun c => deadline.any (· ≤ c.now)) >>= fun past =>
        if past then pure .deadline
        else looking >>= fun cancelled =>
          if cancelled then pure .cancellation else settle deadline own := by
  funext c
  have hwait : c.wait deadline (own c.now) =
      if deadline.any (· ≤ c.now) then (.deadline, c)
      else if c.look.cancelled then (.cancellation, c.look)
      else settle deadline own c.look := rfl
  rw [hwait]
  change _ = (if deadline.any (· ≤ c.now) then _ else _ : StateM _ _) c
  by_cases hpast : deadline.any (· ≤ c.now) = true
  · rw [if_pos hpast, if_pos hpast]
    rfl
  · rw [if_neg hpast, if_neg hpast]
    change _ = (if c.look.cancelled then _ else _ : StateM _ _) c.look
    by_cases hc : c.look.cancelled = true
    · rw [if_pos hc, if_pos hc]
      rfl
    · rw [if_neg hc, if_neg hc]

theorem pending_mirrors (h : c.Mirrors k c') (deadline signal : Option Nat) :
    (wait.pending c' deadline signal).1 = (wait.pending c deadline signal).1 ∧
      (wait.pending c deadline signal).2.Mirrors k (wait.pending c' deadline signal).2 := by
  cases deadline with
  | none =>
    cases signal with
    | none => exact ⟨rfl, h⟩
    | some t => exact ⟨rfl, h.cancel t⟩
  | some d =>
    simp only [wait.pending, h.now]
    split
    · exact ⟨rfl, h.at d⟩
    · exact ⟨rfl, h.cancel _⟩

theorem pending_eq (c : Clock) (deadline signal : Option Nat) :
    ∃ t b, (wait.pending c deadline signal).2 =
      { c with now := t, cancelled := c.cancelled || b } := by
  unfold wait.pending
  split
  · split
    · exact ⟨_, false, by rw [Bool.or_false]⟩
    · exact ⟨_, true, by rw [Bool.or_true]⟩
  · exact ⟨_, true, by rw [Bool.or_true]⟩
  · exact ⟨c.now, false, by rw [Bool.or_false]⟩

/-- The rest of a wait moves the time, and may find the run cancelled. -/
theorem settle_eq (deadline : Option Nat) (own : Nat → Option Nat) (c : Clock) :
    ∃ t b, (settle deadline own c).2 = { c with now := t, cancelled := c.cancelled || b } := by
  unfold settle
  split
  · split
    · exact ⟨_, false, by rw [Bool.or_false]⟩
    · exact pending_eq ..
  · exact pending_eq ..

theorem settle_foresees (deadline : Option Nat) (own : Nat → Option Nat) (c : Clock) :
    Foresees Allows Mirrors Mirrors (settle deadline own : StateM Clock Wake)
      (settle deadline own) c := by
  refine foresees_of_shown (fun c c' k h => ?_) (fun c hopen => ?_) c
  · simp only [settle, h.now, h.signalTime?]
    split
    · split
      · exact ⟨rfl, h.at _⟩
      · exact pending_mirrors h _ _
    · exact pending_mirrors h _ _
  · obtain ⟨t, b, heq⟩ := settle_eq deadline own c
    rw [heq] at hopen ⊢
    exact ⟨(Bool.or_eq_false_iff.1 hopen).1, rfl⟩

/-- **Waits end in the same way under both clocks.** What one waits for oneself may depend on the
time. -/
theorem wait_foresees (deadline : Option Nat) (own : Nat → Option Nat) (c : Clock) :
    Foresees Allows Mirrors Mirrors (fun c => c.wait deadline (own c.now) : StateM Clock Wake)
      (fun c => c.wait deadline (own c.now)) c := by
  rw [wait_eq]
  refine .bind (showing_foresees (fun c c' k h => by rw [h.now]) c) fun past c => ?_
  split
  · exact .pure _ c
  · refine .bind ((looking_foresees c).weaken (fun _ _ _ h => h.toTrails) fun _ _ _ => id)
      fun cancelled c => ?_
    split
    · exact .pure _ c
    · exact settle_foresees deadline own c

end Clock

/-! ### Activities -/

namespace Activity

open Clock

variable {α : Type}

/-- An activity as a computation on a clock. -/
def running (deadline : Option Nat) (x : Activity α) : StateM Clock (Ended α) :=
  fun c => x.run deadline c

/-- **Activities end in the same way under both clocks.** -/
theorem running_foresees (deadline : Option Nat) (x : Activity α) (c : Clock) :
    Foresees Allows Mirrors Mirrors (x.running deadline) (x.running deadline) c := by
  -- the activity ends with the wait, unless it goes on from there
  have hwait (own : Nat → Option Nat) (f : Wake → StateM Clock (Ended α))
      (hf : ∀ w c, Foresees Allows Mirrors Mirrors (f w) (f w) c) (c : Clock) :
      Foresees Allows Mirrors Mirrors
        ((fun c => c.wait deadline (own c.now) : StateM Clock Wake) >>= f)
        ((fun c => c.wait deadline (own c.now) : StateM Clock Wake) >>= f) c :=
    (wait_foresees deadline own c).bind hf
  induction x generalizing c with
  | done a => exact .pure _ c
  | panic m => exact .pure _ c
  | sleep ms next ih =>
    by_cases hz : ms = 0
    · have hrun : running deadline (.sleep ms next) = next.running deadline := by
        funext c
        exact if_pos hz
      rw [hrun]
      exact ih c
    · have hrun : running deadline (.sleep ms next) =
          (fun c => c.wait deadline (some (c.now + ms)) : StateM Clock Wake) >>= fun w =>
            if w = .own then next.running deadline else pure (cutShort w) := by
        funext c
        refine (if_neg hz).trans ?_
        change _ = (if (c.wait deadline (some (c.now + ms))).1 = .own then next.running deadline
          else pure (cutShort (c.wait deadline (some (c.now + ms))).1) : StateM Clock (Ended α))
            (c.wait deadline (some (c.now + ms))).2
        rcases c.wait deadline (some (c.now + ms)) with ⟨w, c₁⟩
        cases w <;> rfl
      rw [hrun]
      refine hwait (fun now => some (now + ms)) _ (fun w c => ?_) c
      split
      · exact ih c
      · exact .pure _ c
  | cancel next ih =>
    have hrun : running deadline (.cancel next) =
        (fun c => ((), { c with cancelled := true }) : StateM Clock Unit) >>= fun _ =>
          next.running deadline := rfl
    rw [hrun]
    have hcancel (c : Clock) :
        Foresees Allows Mirrors Mirrors
          (fun c => ((), { c with cancelled := true }) : StateM Clock Unit)
          (fun c => ((), { c with cancelled := true })) c := by
      refine foresees_of_shown (fun c c' k h => ⟨rfl, ?_⟩) (fun c hopen => ?_) c
      · rw [← h.now]
        exact h.cancel c'.now
      · cases hopen
    exact (hcancel c).bind fun _ c => ih c
  | awaitCancel next ih =>
    have hrun : running deadline (.awaitCancel next) = showing (·.cancelled) >>= fun cancelled =>
        if cancelled then next.running deadline
        else (fun c => c.wait deadline none : StateM Clock Wake) >>= fun w =>
          pure (cutShort w) := by
      funext c
      change _ = (if c.cancelled then _ else _ : StateM _ _) c
      by_cases hc : c.cancelled = true
      · rw [if_pos hc]
        exact if_pos hc
      · rw [if_neg hc]
        exact if_neg hc
    rw [hrun]
    refine .bind (showing_foresees (fun c c' k h => h.cancelled) c) fun cancelled c => ?_
    split
    · exact ih c
    · exact hwait (fun _ => none) _ (fun w c => .pure _ c) c
  | ask next ih =>
    have hrun : running deadline (.ask next) = showing (·.cancelled) >>= fun cancelled =>
        (next cancelled).running deadline := rfl
    rw [hrun]
    exact .bind (showing_foresees (fun c c' k h => h.cancelled) c) fun cancelled c => ih cancelled c
  | never =>
    exact hwait (fun _ => none) (fun w => pure (cutShort w)) (fun w c => .pure _ c) c

end Activity

end Conductor

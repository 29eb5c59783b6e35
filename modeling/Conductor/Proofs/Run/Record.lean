import Conductor.Proofs.Run.Outside
import Conductor.Proofs.Waiting

/-!
# The record of a run

Everything that a run does to its outside is recorded in order, and so is the moment at which the
run has become cancelled. Here the record is read: what was done, apart from the cancellation, and
that nothing was started once the run was cancelled.

* `Happening.isStart` : a turn, an answer of a model or the body of a tool is started;
* `Heeded` : no start stands behind the cancellation;
* `Session.Does` : **from one outside to another exactly these things were done**, the subscribers
  were told exactly the events among them, and the cancellation was heeded;
* `Session.Does.trans` : what is done one after the other stands one after the other in the record;
* `Session.HeldBack` : nothing was done, because the run is cancelled.
-/

namespace Conductor

/-! ### Records -/

namespace Happening

/-- A turn, the answer of a model or the body of a tool is started. -/
def isStart : Happening → Bool
  | .plannerAsked _ | .criticAsked _ | .invoked _ _ | .emitted (.turnStarted _ _) => true
  | _ => false

/-- A turn is announced. -/
def startsTurn : Happening → Bool
  | .emitted (.turnStarted _ _) => true
  | _ => false

/-- The end of a turn is told. -/
def completesTurn : Happening → Bool
  | .emitted (.turnCompleted _ _ _ _) => true
  | _ => false

/-- The model of the planner is asked. -/
def asksPlanner : Happening → Bool
  | .plannerAsked _ => true
  | _ => false

/-- The model of the critic is asked. -/
def asksCritic : Happening → Bool
  | .criticAsked _ => true
  | _ => false

/-- The run has become cancelled. -/
def isCancelled : Happening → Bool
  | .cancelled => true
  | _ => false

end Happening

/-- What a run has done itself: the record without the cancellation. -/
def deeds (hs : List Happening) : List Happening := hs.filter (!·.isCancelled)

theorem deeds_append (hs hs' : List Happening) : deeds (hs ++ hs') = deeds hs ++ deeds hs' :=
  List.filter_append ..

/-- The cancellation is no event. -/
theorem filterMap_event?_deeds (hs : List Happening) :
    (deeds hs).filterMap Happening.event? = hs.filterMap Happening.event? := by
  rw [deeds, List.filterMap_filter]
  refine congrArg (hs.filterMap ·) (funext fun h => ?_)
  cases h <;> rfl

/-- The cancellation is not counted. -/
theorem countP_deeds {p : Happening → Bool} (hp : p .cancelled = false) (hs : List Happening) :
    (deeds hs).countP p = hs.countP p := by
  rw [deeds, List.countP_filter]
  refine congrArg (hs.countP ·) (funext fun h => ?_)
  cases h <;> simp [Happening.isCancelled, hp]

/-- Nothing is started once the run is cancelled. The run may have been cancelled before. -/
def Heeded : Bool → List Happening → Prop
  | _, [] => True
  | cancelled, h :: hs =>
    (cancelled = true → h.isStart = false) ∧ Heeded (cancelled || h.isCancelled) hs

theorem heeded_append {cancelled : Bool} {hs hs' : List Happening} :
    Heeded cancelled (hs ++ hs') ↔
      Heeded cancelled hs ∧ Heeded (cancelled || hs.any Happening.isCancelled) hs' := by
  induction hs generalizing cancelled with
  | nil => simp [Heeded]
  | cons h hs ih => simp [Heeded, ih, and_assoc, Bool.or_assoc]

/-- Behind the cancellation no start is left. -/
theorem Heeded.no_start {hs : List Happening} (h : Heeded true hs) :
    ∀ x ∈ hs, x.isStart = false := by
  induction hs with
  | nil => simp
  | cons y hs ih =>
    obtain ⟨hy, hrest⟩ := h
    intro x hx
    rcases List.mem_cons.1 hx with rfl | hx
    · exact hy rfl
    · exact ih hrest x hx

/-- **Wherever a record is cut behind the cancellation, nothing is started in what follows.** -/
theorem Heeded.after {cancelled : Bool} {before after : List Happening}
    (h : Heeded cancelled (before ++ after))
    (hc : cancelled = true ∨ Happening.cancelled ∈ before) : ∀ x ∈ after, x.isStart = false := by
  have hafter := (heeded_append.1 h).2
  have hany : (cancelled || before.any Happening.isCancelled) = true := by
    rcases hc with rfl | hc
    · rfl
    · rw [List.any_eq_true.2 ⟨_, hc, rfl⟩, Bool.or_true]
  rw [hany] at hafter
  exact hafter.no_start

/-! ### What is done from one outside to another -/

namespace Session

variable {σ : Type}

/-- From the one outside to the other exactly these things were done. -/
structure Does (s : Session σ) (ds : List Happening) (s' : Session σ) : Prop where
  /-- The record has grown by them, and perhaps by the cancellation. -/
  record : ∃ hs, s'.trace = s.trace ++ hs ∧ deeds hs = ds ∧ Heeded s.clock.cancelled hs ∧
    s'.clock.cancelled = (s.clock.cancelled || hs.any Happening.isCancelled)
  /-- The subscribers were told the events among them. -/
  bus : s'.bus = (ds.filterMap Happening.event?).foldl Bus.emit s.bus
  signal : s'.clock.signal = s.clock.signal

namespace Does

variable {s s₁ s' : Session σ} {ds ds' : List Happening}

theorem refl (s : Session σ) : s.Does [] s where
  record := ⟨[], by simp [deeds, Heeded]⟩
  bus := rfl
  signal := rfl

/-- **What is done one after the other stands one after the other in the record.** -/
theorem trans (h : s.Does ds s₁) (h' : s₁.Does ds' s') : s.Does (ds ++ ds') s' where
  record := by
    obtain ⟨hs, ht, hd, hh, hc⟩ := h.record
    obtain ⟨hs', ht', hd', hh', hc'⟩ := h'.record
    refine ⟨hs ++ hs', ?_, ?_, ?_, ?_⟩
    · rw [ht', ht, List.append_assoc]
    · rw [deeds_append, hd, hd']
    · rw [heeded_append]
      exact ⟨hh, hc ▸ hh'⟩
    · rw [hc', hc, List.any_append, Bool.or_assoc]
  bus := by rw [h'.bus, h.bus, List.filterMap_append, List.foldl_append]
  signal := h'.signal.trans h.signal

theorem nil_trans (h : s.Does [] s₁) (h' : s₁.Does ds s') : s.Does ds s' := h.trans h'

theorem trans_nil (h : s.Does ds s₁) (h' : s₁.Does [] s') : s.Does ds s' := by
  have := h.trans h'
  rwa [List.append_nil] at this

/-- What was done is told by the record. -/
theorem unique (h : s.Does ds s') (h' : s.Does ds' s') : ds = ds' := by
  obtain ⟨hs, ht, hd, -⟩ := h.record
  obtain ⟨hs', ht', hd', -⟩ := h'.record
  rw [← hd, ← hd', List.append_cancel_left (ht.symm.trans ht')]

/-- **A run that is cancelled stays cancelled.** -/
theorem cancelled (h : s.Does ds s') (hc : s.clock.cancelled = true) :
    s'.clock.cancelled = true := by
  obtain ⟨hs, -, -, -, hc'⟩ := h.record
  rw [hc', hc, Bool.true_or]

/-- A run that is not cancelled now was not cancelled before. -/
theorem uncancelled (h : s.Does ds s') (hc : s'.clock.cancelled = false) :
    s.clock.cancelled = false := by
  refine Bool.eq_false_iff.2 fun hs => ?_
  rw [h.cancelled hs] at hc
  cases hc

/-- What was done when nothing else has changed than what is not recorded. -/
theorem of_eq (ht : s'.trace = s.trace) (hb : s'.bus = s.bus) (hc : s'.clock = s.clock) :
    s.Does [] s' where
  record := ⟨[], by simp [ht, hc, deeds, Heeded]⟩
  bus := hb
  signal := by rw [hc]

/-- One thing that is done, and what it does to the subscribers. -/
theorem of_trace {h : Happening} (hstart : s.clock.cancelled = true → h.isStart = false)
    (hh : h.isCancelled = false) (ht : s'.trace = s.trace ++ [h])
    (hb : s'.bus = h.event?.toList.foldl Bus.emit s.bus) (hc : s'.clock = s.clock) :
    s.Does [h] s' where
  record := ⟨[h], ht, by simp [deeds, hh], by simpa [Heeded] using hstart, by simp [hc, hh]⟩
  bus := by rw [hb]; cases he : h.event? <;> simp [he]
  signal := by rw [hc]

theorem withClock {c : Clock} (hs : c.signal = s.clock.signal)
    (hc : s.clock.cancelled = true → c.cancelled = true) : s.Does [] (s.withClock c) where
  record := by
    by_cases hnew : (c.cancelled && !s.clock.cancelled) = true
    · refine ⟨[.cancelled], by simp [Session.withClock, hnew], rfl, ?_, ?_⟩
      · simp [Heeded, Happening.isStart]
      · simp_all [Session.withClock, Happening.isCancelled]
    · refine ⟨[], by simp [Session.withClock, hnew], rfl, trivial, ?_⟩
      cases hs' : s.clock.cancelled <;> simp_all [Session.withClock]
  bus := rfl
  signal := hs

end Does

/-- Nothing is done, because the run is cancelled, or because a signal has come. -/
structure HeldBack (s s' : Session σ) : Prop where
  does : s.Does [] s'
  cancelled : s'.clock.cancelled = true
  signalled : s.clock.Signalled

end Session

/-! ### What the single computations do -/

namespace Outside

open Session

variable {σ α : Type} {s s' : Session σ}

theorem note_does {h : Happening} {u : Unit} (hn : (note h).run s = (u, s'))
    (hstart : s.clock.cancelled = true → h.isStart = false) (hh : h.isCancelled = false)
    (he : h.event? = none) : s.Does [h] s' := by
  obtain ⟨-, rfl⟩ := Prod.mk.inj hn
  exact .of_trace hstart hh rfl (by rw [he]; rfl) rfl

theorem emit_does {e : Event} {u : Unit} (h : (emit e).run s = (u, s'))
    (hstart : s.clock.cancelled = true → (Happening.emitted e).isStart = false) :
    s.Does [.emitted e] s' := by
  obtain ⟨-, rfl⟩ := Prod.mk.inj h
  exact .of_trace hstart rfl rfl rfl rfl

theorem emit_cancelled {e : Event} {u : Unit} (h : (emit e).run s = (u, s')) :
    s'.clock.cancelled = s.clock.cancelled := by
  obtain ⟨-, rfl⟩ := Prod.mk.inj h
  rfl

theorem now_eq {t : Nat} (h : Outside.now.run s = (t, s')) : s = s' := congrArg Prod.snd h

theorem look_does {c : Bool} (h : look.run s = (c, s')) :
    s.Does [] s' ∧ c = s'.clock.cancelled := by
  obtain ⟨rfl, rfl⟩ := Prod.mk.inj h
  exact ⟨.withClock rfl Clock.look_cancelled, rfl⟩

theorem look_heldBack (h : look.run s = (true, s')) : s.HeldBack s' := by
  obtain ⟨hdoes, hc⟩ := look_does h
  obtain ⟨hl, -⟩ := Prod.mk.inj h
  exact ⟨hdoes, hc.symm, Clock.signalled_of_look hl⟩

theorem perform_does {deadline : Option Nat} {x : Activity α} {e : Ended α}
    (h : (perform deadline x).run s = (e, s')) :
    s.Does [] s' ∧ Activity.Ends deadline s.clock e s'.clock := by
  obtain ⟨rfl, rfl⟩ := Prod.mk.inj h
  have hx := x.run_ends deadline s.clock
  exact ⟨.withClock hx.signal hx.cancelled, hx⟩

/-- An operation of the store is recorded; what it gives does not matter. -/
theorem operate_does {h : Happening} {op : σ → Except String α × σ} {e : Except StoreFault α}
    (ho : (operate h op).run s = (e, s')) (hstart : h.isStart = false)
    (hh : h.isCancelled = false) (he : h.event? = none) : s.Does [h] s' := by
  obtain ⟨_, s₁, hn, ho⟩ := run_bind_eq.1 ho
  obtain ⟨-, rfl⟩ := Prod.mk.inj ho
  exact (note_does hn (fun _ => hstart) hh he).trans_nil (.of_eq rfl rfl rfl)

end Outside

end Conductor

import Conductor.Proofs.Digest
import Conductor.Proofs.Nesting
import Conductor.Proofs.Decision.Canonical
import Conductor.Proofs.Run.Boundary
import Conductor.Proofs.Run.Sparing
import Conductor.Proofs.Store.Directory

/-!
# What a run has stored in a directory is loaded

A run that began afresh has set no number of its state beyond what the budget allows, so its states
are read back from their files, as long as calls and outputs are nested less deeply than a reply may
be: what stands in a state stands under brackets of its own.

* `RunState.Grown` : what a run that began afresh makes of its state;
* `grown_of_fresh` : **every turn of the run leaves such a state;**
* `CompletedTurn.storable` : such a state can be kept;
* `Agent.run_loads_back` : **after a turn just its state is loaded, if the arguments are at most 123
  and the output at most 124 brackets deep; otherwise loading fails;**
* `Agent.echoing_lost` : **a run that was given deeper arguments in a reply goes on, but its state is
  lost.**
-/

namespace Conductor

open Json

/-! ### States of a run that began afresh -/

/-- After at most 2³² - 1 turns the numbers of a digest fit the types in which they are kept. -/
theorem Digest.Fits.storable {n : Nat} {d : Digest} (h : d.Fits n) (hn : n < 2 ^ 32) :
    d.Storable where
  entries p hp := ⟨Nat.lt_of_le_of_lt (h.turn p hp) hn, Nat.lt_of_le_of_lt (h.updates p hp) hn⟩
  elided := by
    have := h.lines
    omega

/-- The state is one that a run makes of the first one: goal and budget stay, and the digest does
not outgrow the turns. -/
structure RunState.Grown (goal : Goal) (budget : Budget) (s : RunState) : Prop where
  goal : s.goal = goal
  budget : s.budget = budget
  digest : s.digest.Fits s.turnIndex

theorem RunState.grown_initial (goal : Goal) (budget : Budget) :
    (initial goal budget).Grown goal budget where
  goal := rfl
  budget := rfl
  digest := Digest.fits_empty

theorem RunState.Grown.advance {goal : Goal} {budget : Budget} {s : RunState}
    (h : s.Grown goal budget) (limits : DigestLimits) (action : Action) (o : Option Observation)
    (c : Option Critique) : (s.advance limits action o c).Grown goal budget where
  goal := h.goal
  budget := h.budget
  digest := RunState.fits_advance h.digest action o c

/-- **A state that was saved in a directory is loaded just if it is shallow.** -/
theorem StateStore.directory_load_saved {dir : List String} {runId : String} {s : RunState}
    {fs fs' : Files} (hs : s.Storable) (h : (directory dir).save runId s fs = (.ok (), fs')) :
    (s.Shallow → (directory dir).load runId fs' = (.ok (some s), fs')) ∧
      (¬ s.Shallow → ∃ e, (directory dir).load runId fs' = (.error e, fs')) := by
  rw [directory_load_of_save h]
  constructor
  · intro hshallow
    rw [readable_of_storable hs (RunState.depth_encode_le.2 hshallow)]
  · intro hdeep
    have hdepth : 127 < (RunState.codec.encode s).depth :=
      Nat.lt_of_not_le fun hle => hdeep (RunState.depth_encode_le.1 hle)
    obtain ⟨e, he⟩ := (RunState.stored hs).refused hdepth
    exact ⟨e.message, by rw [ofFileText, fileText, he]⟩

namespace Agent

open StateStore

variable {σ : Type} {a : Agent σ} {runId : String} {policy : FailurePolicy}

namespace CompletedTurn

variable {goal : Goal} {budget : Budget} (t : a.CompletedTurn runId policy)

theorem grown (h : t.before.Grown goal budget) : t.next.Grown goal budget := by
  obtain ⟨seen, critique, hnext⟩ := t.yields.advances
  rw [next, hnext]
  exact h.advance _ _ _ _

theorem observes {c : Call} {n : Nat} {w : Duration} (h : t.action = .callTool c n w) :
    ∃ o, t.next.lastObservation = some o ∧ o.result.IsFor c n := by
  have hyields := t.yields
  rw [h] at hyields
  exact hyields.observes

/-- What the store holds after a completed turn that was not cancelled. -/
theorem store_after {st : StateStore σ} (hstore : a.store = some st)
    (hopen : t.after.clock.cancelled = false) :
    t.after.store = (st.save runId t.next t.start.store).2 := by
  rw [store_of_step hstore t.completes]
  exact if_neg (ne_of_eq_of_ne hopen Bool.false_ne_true)

/-- The state is shallow if the call that was made and its output are. -/
theorem shallow_next_iff : t.next.Shallow ↔ ∀ o, t.next.lastObservation = some o →
    o.result.call.args.depth ≤ 123 ∧ o.result.data.depth ≤ 124 := by
  refine ⟨fun h o ho => ⟨h.args o ho, h.data o ho⟩, fun h => ⟨fun c n w haction => ?_,
    fun o ho => (h o ho).1, fun o ho => (h o ho).2⟩⟩
  -- the call of the action is also that of the result, where it stands one bracket deeper
  obtain ⟨o, ho, hfor⟩ := t.observes (Option.some.inj (t.next_lastAction.symm.trans haction))
  rw [← hfor.call]
  exact Nat.le_succ_of_le (h o ho).1

end CompletedTurn

/-- A state that has grown within the budget can be kept, if the call and its result can. -/
theorem CompletedTurn.storable {goal : Goal} {budget : Budget} (t : a.CompletedTurn runId policy)
    (h : t.next.Grown goal budget) (hgoal : goal.Storable) (hbudget : budget.Storable)
    (hturn : t.next.turnIndex ≤ budget.maxTurns) (hcall : t.action.Storable)
    (hresult : ∀ o, t.next.lastObservation = some o → o.result.Storable) : t.next.Storable where
  goal := by rwa [h.goal]
  lastAction x hx := by
    obtain rfl := Option.some.inj (t.next_lastAction.symm.trans hx)
    exact hcall
  lastObservation := hresult
  budget := by rwa [h.budget]
  turnIndex := Nat.lt_of_le_of_lt hturn hbudget.maxTurns
  digest := h.digest.storable (Nat.lt_of_le_of_lt hturn hbudget.maxTurns)

/-- **In a run that began afresh every turn leaves a state that has grown within the budget.** -/
theorem grown_of_fresh {goal : Goal} {budget : Budget} {s : Session σ}
    (hfresh : a.firstState runId goal budget s = .initial goal budget)
    {t : a.CompletedTurn runId policy} (ht : t ∈ a.turns runId goal budget policy s) :
    t.next.Grown goal budget ∧ t.next.turnIndex ≤ budget.maxTurns := by
  obtain ⟨c⟩ := a.exists_chronicle runId policy goal budget s
  have hfirst : c.first = .initial goal budget := c.firstState_eq.symm.trans hfresh
  have hturn := c.next_turnIndex_le ht
  rw [hfirst] at hturn
  exact ⟨c.course.forall_next (hfirst ▸ RunState.grown_initial goal budget)
    (fun t => t.grown) t ht, hturn⟩

/-! ### What is loaded after a turn -/

section Loading

variable {dir : List String} {goal : Goal} {budget : Budget} {s : Session Files}

/-- In a run that began afresh the state of a turn can be kept, and what is stored after the turn is
that state. -/
theorem saved_of_fresh {a : Agent Files} (hstore : a.store = some (directory dir))
    (hfresh : a.firstState runId goal budget s = .initial goal budget) (hgoal : goal.Storable)
    (hbudget : budget.Storable) {t : a.CompletedTurn runId policy}
    (ht : t ∈ a.turns runId goal budget policy s) (hopen : t.after.clock.cancelled = false)
    (hwritten : ((directory dir).save runId t.next t.start.store).1 = .ok ())
    (hcall : t.action.Storable)
    (hresult : ∀ o, t.next.lastObservation = some o → o.result.Storable) :
    t.next.Storable ∧
      (directory dir).save runId t.next t.start.store = (.ok (), t.after.store) := by
  obtain ⟨hgrown, hturn⟩ := grown_of_fresh hfresh ht
  have hsaved := t.store_after hstore hopen
  exact ⟨t.storable hgrown hgoal hbudget hturn hcall hresult, Prod.ext hwritten hsaved.symm⟩

/-- **After every turn of a run that began afresh its state is loaded**, and nothing of it has
changed, if the arguments of its call are at most 123 brackets deep and the output at most 124. If
they are not, what was stored cannot be loaded. Files can be written, and the values in call and
result are objects as they are kept, of numbers that are read back from their numerals. -/
theorem run_loads_back {a : Agent Files} (hstore : a.store = some (directory dir))
    (hfresh : a.firstState runId goal budget s = .initial goal budget) (hgoal : goal.Storable)
    (hbudget : budget.Storable) {t : a.CompletedTurn runId policy}
    (ht : t ∈ a.turns runId goal budget policy s) (hopen : t.after.clock.cancelled = false)
    (hwritten : ((directory dir).save runId t.next t.start.store).1 = .ok ())
    (hcall : t.action.Storable)
    (hresult : ∀ o, t.next.lastObservation = some o → o.result.Storable) :
    t.after.store = ((directory dir).save runId t.next t.start.store).2 ∧
    ((∀ o, t.next.lastObservation = some o →
        o.result.call.args.depth ≤ 123 ∧ o.result.data.depth ≤ 124) →
      (directory dir).load runId t.after.store = (.ok (some t.next), t.after.store)) ∧
    ((∃ o, t.next.lastObservation = some o ∧
        (123 < o.result.call.args.depth ∨ 124 < o.result.data.depth)) →
      ∃ e, (directory dir).load runId t.after.store = (.error e, t.after.store)) := by
  obtain ⟨hs, hsave⟩ :=
    saved_of_fresh hstore hfresh hgoal hbudget ht hopen hwritten hcall hresult
  obtain ⟨hread, hrefused⟩ := directory_load_saved hs hsave
  refine ⟨by rw [hsave], fun h => hread (t.shallow_next_iff.2 h),
    fun ⟨o, ho, hdeep⟩ => hrefused fun h => ?_⟩
  obtain ⟨hargs, hdata⟩ := t.shallow_next_iff.1 h o ho
  omega

end Loading

/-! ### Runs with a tool that gives its arguments back -/

section Echoing

variable {ms : List (String × Json)} {state : RunState} {s : Session Files}

/-- The call of a tool with an object. -/
def echo (ms : List (String × Json)) : Call := ⟨"echo", .object ms⟩

/-- Calls a tool that gives its arguments back. States are stored in a directory. -/
def echoing (ms : List (String × Json)) : Agent Files :=
  { Agent.rehearsed [.rehearsed "echo" []] [.text (Decision.callObject (echo ms)).compact] with
    store := some (directory ["runs"]) }

/-- What the tool gives. -/
def echoed (ms : List (String × Json)) : Result :=
  { Result.success (echo ms) 1 (.object ms) with latency := .millis 0 }

/-- An outside without any files. -/
def withoutFiles : Session Files := .start (.start false .never) [] []

/-- Nothing has cancelled the run or will, and no time has passed. -/
def Calm (s : Session Files) : Prop := ∃ looks, s.clock = ⟨0, false, looks, .never⟩

theorem Calm.save (hs : Calm s) {st : StateStore Files} :
    Calm ((Outside.save (some st) runId state).run s).2 := by
  obtain ⟨clock, planned, criticized, readings, invocations, bus, store, trace⟩ := s
  obtain ⟨looks, rfl⟩ := hs
  exact ⟨_, rfl⟩

variable (ms) in
theorem echoing_asks (hs : Calm s) (hasked : s.plannerCalls = 0) (p : Prompt) :
    ∃ s₁, ((echoing ms).askPlanner p).run s =
      (.returned (.ok (Decision.callObject (echo ms)).compact), s₁) ∧ Calm s₁ := by
  obtain ⟨clock, planned, criticized, readings, invocations, bus, store, trace⟩ := s
  obtain ⟨looks, rfl⟩ := hs
  obtain rfl := hasked
  exact ⟨_, rfl, ⟨_, rfl⟩⟩

variable (ms) in
theorem echoing_calls (hs : Calm s) :
    ∃ s₁, ((echoing ms).call (echo ms) 1).run s = (echoed ms, s₁) ∧ Calm s₁ := by
  obtain ⟨clock, planned, criticized, readings, invocations, bus, store, trace⟩ := s
  obtain ⟨looks, rfl⟩ := hs
  exact ⟨_, rfl, ⟨_, rfl⟩⟩

variable (hstorable : (echo ms).Storable) (hdepth : (Json.object ms).depth ≤ 126)

include hstorable hdepth

theorem echoing_decides (state : RunState) (hs : Calm s) (hasked : s.plannerCalls = 0) :
    ∃ s₁, ((echoing ms).decide state).run s = (.ok (.callTool (echo ms)), s₁) ∧ Calm s₁ := by
  have hwritten : Written (Decision.callObject (echo ms))
      (Decision.callObject (echo ms)).compact.toList := written_compact _
  have hname : Text.isBlankText "echo" = false := by decide
  obtain ⟨s₁, hask, hs₁⟩ := echoing_asks ms hs hasked _
  refine ⟨s₁, ?_, hs₁⟩
  rw [Agent.decide, Outside.run_bind, hask]
  simp only [Decision.parse_callObject hstorable hname rfl hwritten hdepth]
  rfl

/-- The first turn calls the tool, and the state that follows shows what the tool gave. -/
theorem echoing_turn (hs : Calm s) (hasked : s.plannerCalls = 0)
    (hlast : state.lastObservation = none) :
    ∃ o s₁, ((echoing ms).turn "run" .standard state).run s = (.ok o, s₁) ∧ Calm s₁ ∧
      o.next.lastAction = some (.first (echo ms)) ∧
      ∃ x, o.next.lastObservation = some x ∧ x.result = echoed ms := by
  have hresolve : (echoing ms).resolve .standard state (.callTool (echo ms)) =
      .first (echo ms) := by
    rw [resolve, FailurePolicy.resolve, hlast]
    rfl
  obtain ⟨s₁, hdecide, hs₁⟩ := echoing_decides hstorable hdepth state hs hasked
  obtain ⟨s₂, hcall, hs₂⟩ := echoing_calls ms hs₁
  obtain ⟨s₃, hdone, hclock⟩ :=
    doCall_unjudged (a := echoing ms) "run" state (.first (echo ms)) rfl hcall
  let x := (echoing ms).normalizer.observe "echo" (.object ms) (echoed ms)
  refine ⟨⟨(echoing ms).next state (.first (echo ms)) (some x) none, none⟩, s₃,
    Outside.run_bind_eq.2 ⟨_, _, hdecide, ?_⟩, by rwa [Calm, hclock], rfl, x, rfl, rfl⟩
  change ((echoing ms).act "run" state ((echoing ms).resolve ..)).run s₁ = _
  rw [hresolve]
  exact hdone

/-- **The first turn of the run calls the tool, and what it left is written.** -/
theorem echoing_turns :
    ∃ t ∈ (echoing ms).turns "run" .rehearsed .standard .standard withoutFiles,
      t.after.clock.cancelled = false ∧
      ((directory ["runs"]).save "run" t.next t.start.store).1 = .ok () ∧ t.action.Storable ∧
      ∃ o, t.next.lastObservation = some o ∧ o.result = echoed ms := by
  let first := RunState.initial .rehearsed .standard
  -- nothing is stored, so that the run begins afresh
  let s₀ := (((echoing ms).begin_ "run" .rehearsed .standard).run withoutFiles).2
  obtain ⟨s, hhalt, hs, hasked, hempty⟩ : ∃ s,
      ((echoing ms).halt? 20 first).run s₀ = (none, s) ∧ Calm s ∧ s.plannerCalls = 0 ∧
        s.store = [] := ⟨_, rfl, ⟨_, rfl⟩, rfl, rfl⟩
  let announced := ((Outside.emit (.turnStarted "run" 1)).run s).2
  obtain ⟨o, s₁, hturn, hs₁, haction, hobserved⟩ :
      ∃ o s₁, ((echoing ms).turn "run" .standard first).run announced = (.ok o, s₁) ∧ Calm s₁ ∧
        o.next.lastAction = some (.first (echo ms)) ∧
        ∃ x, o.next.lastObservation = some x ∧ x.result = echoed ms :=
    echoing_turn hstorable hdepth hs hasked rfl
  obtain ⟨s₂, hclock, hstep⟩ := step_of_turn hturn
  obtain ⟨t, ht, -, rfl, rfl, hafter⟩ := completed?_of_ok hstep
  have hmem : t ∈ (echoing ms).turnsFrom "run" .standard 20 first s₀ := by
    rw [turnsFrom, hhalt]
    simp only [ht]
    exact List.mem_cons_self ..
  have hcalm : Calm t.after := by
    rw [hafter]
    exact Calm.save (by rwa [Calm, hclock])
  obtain ⟨looks, hopen⟩ := hcalm
  have hid : "run".length ≤ 250 := by decide
  obtain ⟨fs', hsave, -⟩ := directory_save_ok empty_folder hid t.next
  refine ⟨t, hmem, by rw [hopen], by rw [hempty, hsave], ?_, hobserved⟩
  rw [Option.some.inj (t.next_lastAction.symm.trans haction)]
  exact ⟨hstorable, by decide, by decide⟩

omit hstorable hdepth

theorem echoed_storable (h : (echo ms).Storable) : (echoed ms).Storable where
  call := h
  data := h.args
  attempt := show 1 < 2 ^ 32 by decide
  latency := show (Duration.millis 0).Storable by decide
  retryAfter := nofun

theorem echoing_fresh :
    (echoing ms).firstState "run" .rehearsed .standard withoutFiles =
      .initial .rehearsed .standard :=
  rfl

/-- The first turn of a run whose tool gives a small object back. -/
theorem run_loads_back_echoing :
    ∃ t ∈ (echoing [("a", .array [])]).turns "run" .rehearsed .standard .standard withoutFiles,
      t.after.clock.cancelled = false ∧
      ((directory ["runs"]).save "run" t.next t.start.store).1 = .ok () ∧
      t.next.lastObservation.isSome = true ∧
      (directory ["runs"]).load "run" t.after.store = (.ok (some t.next), t.after.store) := by
  have hstorable : (echo [("a", .array [])]).Storable :=
    ⟨.object (by decide) (by simp)⟩
  obtain ⟨t, ht, hopen, hwritten, hcall, o, ho, hr⟩ := echoing_turns hstorable (by decide)
  have hresult : ∀ x, t.next.lastObservation = some x → x.result = echoed [("a", .array [])] := by
    intro x hx
    rw [← hr, Option.some.inj (hx.symm.trans ho)]
  have hloads := run_loads_back rfl echoing_fresh (by decide) ⟨by decide, by decide⟩ ht hopen
    hwritten hcall fun x hx => hresult x hx ▸ echoed_storable hstorable
  refine ⟨t, ht, hopen, hwritten, by rw [ho]; rfl, hloads.2.1 fun x hx => ?_⟩
  rw [hresult x hx]
  decide

/-- **A reply may hold what a state may not:** an object that is 124, 125 or 126 brackets deep is
read from a reply, and the state that it stands in is saved, but not loaded. -/
theorem echoing_lost (hstorable : (echo ms).Storable) (hdepth : (Json.object ms).depth ≤ 126)
    (hdeep : 123 < (Json.object ms).depth) :
    ∃ t ∈ (echoing ms).turns "run" .rehearsed .standard .standard withoutFiles,
      t.after.clock.cancelled = false ∧
      ((directory ["runs"]).save "run" t.next t.start.store).1 = .ok () ∧
      ∃ e, (directory ["runs"]).load "run" t.after.store = (.error e, t.after.store) := by
  obtain ⟨t, ht, hopen, hwritten, hcall, o, ho, hr⟩ := echoing_turns hstorable hdepth
  obtain ⟨hs, hsave⟩ := saved_of_fresh rfl echoing_fresh (by decide) ⟨by decide, by decide⟩ ht hopen
    hwritten hcall fun x hx => by
      rw [Option.some.inj (hx.symm.trans ho), hr]
      exact echoed_storable hstorable
  refine ⟨t, ht, hopen, hwritten, (directory_load_saved hs hsave).2 fun hshallow => ?_⟩
  have hargs := hshallow.args o ho
  rw [hr] at hargs
  exact absurd hargs (Nat.not_le.2 hdeep)

/-- A list in a list, and so on. -/
def nested : Nat → Json
  | 0 => .array []
  | n + 1 => .array [nested n]

theorem depth_nested (n : Nat) : (nested n).depth = n + 1 := by
  induction n with
  | zero => rfl
  | succ n ih =>
    rw [nested, Json.depth, Json.depthItems, Json.depthItems, ih]
    omega

theorem storable_nested (n : Nat) : (nested n).Storable := by
  induction n with
  | zero => simp [nested]
  | succ n ih => simpa [nested] using ih

/-- A state that was saved may not be loaded: a reply may hold an object that is 124 brackets deep,
but a state may not. -/
theorem echoing_not_loaded :
    ¬ ∀ t ∈ (echoing [("a", nested 122)]).turns "run" .rehearsed .standard .standard withoutFiles,
      t.after.clock.cancelled = false →
      ((directory ["runs"]).save "run" t.next t.start.store).1 = .ok () →
      ((directory ["runs"]).load "run" t.after.store).1 = .ok (some t.next) := by
  intro hloads
  have hstorable : (echo [("a", nested 122)]).Storable :=
    ⟨.object (show ["a"].Pairwise (· < ·) by decide) (by simp [storable_nested])⟩
  have hdepth : (Json.object [("a", nested 122)]).depth = 124 := by
    rw [Json.depth, Json.depthMembers, Json.depthMembers, depth_nested]
    rfl
  obtain ⟨t, ht, hopen, hwritten, e, he⟩ := echoing_lost hstorable (by omega) (by omega)
  have hload := hloads t ht hopen hwritten
  rw [he] at hload
  cases hload

end Echoing

end Agent

end Conductor

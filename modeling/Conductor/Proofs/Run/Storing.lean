import Conductor.Proofs.Run.Accounts
import Conductor.Proofs.Run.Rehearsed
import Conductor.Proofs.Run.Sparing
import Conductor.Proofs.Store.Steps

/-!
# What a run does to its store

A run asks its store once, stores the new state after every turn until it is cancelled, and removes
what it has stored at the end. The record of the run tells all of this, and when: whatever the store
is, it holds what the recorded steps have left.

* `storeSteps` : the steps of the store in a record;
* `Asked` : what is true whenever the model of the planner is asked;
* `Session.Keeps` : **what is stored has changed by the recorded steps, and by nothing else;**
* `Course.keeps` : the turns of a run, their steps, and what is stored when the model is asked;
* `Agent.run_keeps` : the same of a whole run, whatever its store is;
* `Agent.run_stores` : **if the store is a map, then it holds, whenever the model is asked again,
  the state that it is asked with, and it holds nothing of the run at the end.**
-/

namespace Conductor

/-! ### Steps in a record -/

/-- The step of a store that a happening records. -/
def Happening.step? : Happening → Option StoreStep
  | .saved runId s => some (.save runId s)
  | .loaded runId => some (.load runId)
  | .cleared runId => some (.clear runId)
  | _ => none

/-- The steps of the store in a record. -/
def storeSteps (hs : List Happening) : List StoreStep := hs.filterMap Happening.step?

theorem storeSteps_append (hs hs' : List Happening) :
    storeSteps (hs ++ hs') = storeSteps hs ++ storeSteps hs' :=
  List.filterMap_append ..

/-- The cancellation is no step of the store. -/
theorem storeSteps_deeds (hs : List Happening) : storeSteps (deeds hs) = storeSteps hs := by
  rw [storeSteps, deeds, List.filterMap_filter]
  refine congrArg (hs.filterMap ·) (funext fun h => ?_)
  cases h <;> rfl

/-- Whenever the model of the planner is asked in a record, this is true of what stands before and
of the prompt. -/
def Asked (ask : List Happening → Prompt → Prop) (hs : List Happening) : Prop :=
  ∀ before p after, hs = before ++ .plannerAsked p :: after → ask before p

namespace Asked

variable {ask : List Happening → Prompt → Prop} {h : Happening} {hs hs' : List Happening}

theorem of_countP (h : hs.countP Happening.asksPlanner = 0) : Asked ask hs := by
  rintro before p after rfl
  rw [List.countP_append, List.countP_cons] at h
  simp [Happening.asksPlanner] at h

theorem cons (hhead : ∀ p, h = .plannerAsked p → ask [] p)
    (htail : Asked (fun before => ask (h :: before)) hs) : Asked ask (h :: hs) := by
  intro before p after heq
  cases before with
  | nil => exact hhead p (List.cons.inj heq).1
  | cons h' before =>
    obtain ⟨rfl, hrest⟩ := List.cons.inj heq
    exact htail before p after hrest

theorem append (hfirst : Asked ask hs) (hrest : Asked (fun before => ask (hs ++ before)) hs') :
    Asked ask (hs ++ hs') := by
  induction hs generalizing ask with
  | nil => exact hrest
  | cons h hs ih =>
    refine cons (fun p hp => hfirst [] p hs (by rw [hp]; rfl))
      (ih (fun before p after heq => ?_) hrest)
    exact hfirst (h :: before) p after (by rw [heq]; rfl)

end Asked

namespace Session

variable {σ : Type} {st : StateStore σ} {s s₁ s' : Session σ} {ds ds' : List Happening}

/-- Exactly these things were done, and what is stored is what the steps among them have left. -/
structure Keeps (st : StateStore σ) (s : Session σ) (ds : List Happening) (s' : Session σ) : Prop
    extends s.Does ds s' where
  store : s'.store = st.after (storeSteps ds) s.store

theorem Keeps.trans (h : s.Keeps st ds s₁) (h' : s₁.Keeps st ds' s') :
    s.Keeps st (ds ++ ds') s' where
  toDoes := h.toDoes.trans h'.toDoes
  store := by rw [h'.store, h.store, storeSteps_append, st.after_append]

/-- What was done without a step of the store. -/
theorem Keeps.of_does (h : s.Does ds s') (hsteps : storeSteps ds = [])
    (hstore : s'.store = s.store) : s.Keeps st ds s' where
  toDoes := h
  store := by rw [hstore, hsteps]; rfl

end Session

namespace Agent

open Outside Session

variable {σ : Type} {a : Agent σ} {runId : String} {policy : FailurePolicy} {st : StateStore σ}

/-! ### One turn -/

theorem ActionDeeds.storeSteps_eq {action : Action} {ds : List Happening}
    (h : a.ActionDeeds runId action ds) : storeSteps ds = [] := by
  cases h with
  | call h =>
    obtain ⟨hbody, -, hasked⟩ := h
    rcases hasked with rfl | ⟨p, rfl⟩ <;> cases hbody <;> rfl
  | ask | stop | replan => rfl

theorem FaultDeeds.storeSteps_eq {s : Session σ} {state : RunState} {f : TurnFault}
    {ds : List Happening} (h : a.FaultDeeds runId s policy state f ds) : storeSteps ds = [] := by
  cases h with
  | unasked | undone => rfl
  | unjudged hd ha hds =>
    rw [storeSteps_append, (ActionDeeds.call (w := .zero) (n := 0) hds).storeSteps_eq]
    rfl

variable (a runId) in
/-- A turn is opened by the question with the prompt of its state. -/
theorem opening_asked {ask : List Happening → Prompt → Prop} {state : RunState}
    (h : ask [.emitted (.turnStarted runId (state.turnIndex + 1))]
      (a.planner.prompt a.executor.registry state)) : Asked ask (a.opening runId state) := by
  refine .cons nofun (.cons ?_ (.of_countP rfl))
  rintro p ⟨⟩
  exact h

theorem FaultDeeds.asked {ask : List Happening → Prompt → Prop} {s : Session σ} {state : RunState}
    {f : TurnFault} {ds : List Happening} (h : a.FaultDeeds runId s policy state f ds)
    (hask : ask [.emitted (.turnStarted runId (state.turnIndex + 1))]
      (a.planner.prompt a.executor.registry state)) : Asked ask ds := by
  cases h with
  | unasked => exact .of_countP rfl
  | undone => exact a.opening_asked runId hask
  | unjudged hd ha hds => exact (a.opening_asked runId hask).append (.of_countP hds.count.2.2.1)

variable (st) in
/-- What is known of the record of a completed turn. -/
structure CompletedTurn.Records (t : a.CompletedTurn runId policy) (ds : List Happening) :
    Prop where
  keeps : t.start.Keeps st ds t.after
  completes : ds.countP Happening.completesTurn = 1
  steps : storeSteps ds = if t.after.clock.cancelled then [] else [.save runId t.next]
  asked : ∀ ask : List Happening → Prompt → Prop,
    ask [.emitted (.turnStarted runId (t.before.turnIndex + 1))]
      (a.planner.prompt a.executor.registry t.before) → Asked ask ds

/-- **A completed turn asks the model once and stores the new state, unless it is cancelled.** -/
theorem CompletedTurn.records (t : a.CompletedTurn runId policy) (hstore : a.store = some st)
    (hs : t.start.clock.cancelled = false) : ∃ ds, t.Records st ds := by
  obtain ⟨ds, ms, hds, hdoes⟩ := t.does_saving hs
  obtain ⟨-, hcompletes, hasks, -, -⟩ := hds.count
  have hsaved : savedDeeds a.store runId t.next t.after =
      if t.after.clock.cancelled then [] else [.saved runId t.next] := by
    rw [savedDeeds, hstore]
    cases t.after.clock.cancelled <;> rfl
  rw [hsaved] at hdoes
  have hsteps : storeSteps (a.opening runId t.before ++ ds ++
      .emitted (.turnCompleted runId (t.before.turnIndex + 1) ms t.action.kind) ::
        if t.after.clock.cancelled then [] else [.saved runId t.next]) =
      if t.after.clock.cancelled then [] else [.save runId t.next] := by
    rw [storeSteps_append, storeSteps_append, hds.storeSteps_eq]
    cases t.after.clock.cancelled <;> rfl
  refine ⟨_, ⟨hdoes, ?_⟩, ?_, hsteps, fun ask hask => ?_⟩
  · rw [hsteps, store_of_step hstore t.completes]
    cases t.after.clock.cancelled <;> rfl
  · rw [List.countP_append, List.countP_append, hcompletes]
    cases t.after.clock.cancelled <;> rfl
  · refine ((a.opening_asked runId hask).append (.of_countP hasks)).append (.of_countP ?_)
    cases t.after.clock.cancelled <;> rfl

/-! ### The turns of a run -/

variable (a runId) in
/-- The model of the planner is asked with the prompt of the turn that is begun then. If this is not
the first one, or the first state was `kept` from before, then what is kept under the id by that
time is the state of this turn. -/
def AsksAsKept (begun : List (RunState × Session σ)) (first : RunState) (kept : Option RunState)
    (before : List Happening) (p : Prompt) : Prop :=
  ∃ b, begun[before.countP Happening.completesTurn]? = some b ∧
    p = a.planner.prompt a.executor.registry b.1 ∧
    (before.countP Happening.completesTurn ≠ 0 ∨ kept = some first →
      StoreStep.latest (· = runId) kept (storeSteps before) = some b.1)

/-- The first turn asks with its own prompt. -/
theorem asksAsKept_first {rest : List (RunState × Session σ)} {first : RunState} {s : Session σ}
    {kept : Option RunState} {e : Event} (he : (Happening.emitted e).completesTurn = false) :
    a.AsksAsKept runId ((first, s) :: rest) first kept [.emitted e]
      (a.planner.prompt a.executor.registry first) := by
  have hcount : [Happening.emitted e].countP Happening.completesTurn = 0 := by simp [he]
  refine ⟨(first, s), by rw [hcount]; rfl, rfl, fun hkept => ?_⟩
  exact hkept.resolve_left fun hno => hno hcount

/-- In a run that is cancelled no turn is begun. -/
theorem begunFrom_of_cancelled {left : Nat} {state : RunState} {s : Session σ}
    (hc : s.clock.cancelled = true) : a.begunFrom runId policy left state s = [] := by
  rcases halt : (a.halt? left state).run s with ⟨r, s₁⟩
  obtain ⟨hhead, hnone, -⟩ := halt?_does halt
  cases r with
  | some r => exact begunFrom_of_halt halt
  | none =>
    have hopen := (hnone rfl).1
    rw [hhead.cancelled hc] at hopen
    cases hopen

namespace Course

variable {left : Nat} {state final : RunState} {s s' : Session σ} {v : Option Verdict}
  {turns : List (a.CompletedTurn runId policy)}

/-- **What the turns of a run do to the store**, and what is stored when the model is asked. -/
theorem keeps (hstore : a.store = some st)
    (h : a.Course runId policy left state s turns v final s') :
    ∃ ds, s.Keeps st ds s' ∧
      storeSteps ds = (turns.takeWhile fun t => !t.after.clock.cancelled).map
        (fun t => .save runId t.next) ∧
      ∀ kept, Asked (a.AsksAsKept runId (a.begunFrom runId policy left state s) state kept) ds := by
  -- the head of the loop does nothing, and leads to a turn only in a run that is not cancelled
  have hhead {left : Nat} {state : RunState} {s s₁ : Session σ}
      (halt : (a.halt? left state).run s = (none, s₁)) :
      s.Keeps st [] s₁ ∧ s₁.clock.cancelled = false := by
    obtain ⟨hdoes, hnone, -⟩ := halt?_does halt
    exact ⟨.of_does hdoes rfl (store_of_halt halt), (hnone rfl).1⟩
  induction h with
  | halted halt =>
    exact ⟨[], .of_does (halt?_does halt).1 rfl (store_of_halt halt), rfl, fun _ => .of_countP rfl⟩
  | @failed left state s s₁ s' f halt step =>
    obtain ⟨hkeeps, hc⟩ := hhead halt
    obtain ⟨-, ds, hds, hdoes⟩ := a.step_fault_does step hc
    refine ⟨ds, hkeeps.trans (.of_does hdoes hds.storeSteps_eq (store_of_step hstore step)),
      hds.storeSteps_eq, fun kept => ?_⟩
    rw [begunFrom_of_fault halt step]
    exact hds.asked (asksAsKept_first rfl)
  | @ended left s t v halt hv =>
    obtain ⟨hkeeps, hc⟩ := hhead halt
    obtain ⟨ds, hds⟩ := t.records hstore hc
    refine ⟨ds, hkeeps.trans hds.keeps, ?_, fun kept => ?_⟩
    · rw [hds.steps, List.takeWhile_cons]
      cases t.after.clock.cancelled <;> rfl
    · rw [begunFrom_of_verdict halt hv]
      exact hds.asked _ (asksAsKept_first rfl)
  | @goesOn left s s' t turns v final halt hv rest ih =>
    obtain ⟨hkeeps, hc⟩ := hhead halt
    obtain ⟨ds, hds⟩ := t.records hstore hc
    obtain ⟨ds', hkeeps', hsteps', hasked'⟩ := ih
    rw [begunFrom_of_next halt hv]
    refine ⟨ds ++ ds', hkeeps.trans (hds.keeps.trans hkeeps'), ?_, fun kept => ?_⟩
    · rw [storeSteps_append, hds.steps, hsteps', List.takeWhile_cons]
      cases hcancelled : t.after.clock.cancelled with
      | false => rfl
      | true =>
        obtain ⟨rfl, -⟩ := rest.of_cancelled hcancelled
        rfl
    · refine (hds.asked _ (asksAsKept_first rfl)).append ?_
      cases hcancelled : t.after.clock.cancelled with
      | false =>
        -- the next turn begins with the state that was stored
        intro before p after heq
        obtain ⟨b, hb, hp, hkept⟩ := hasked' (some t.next) before p after heq
        refine ⟨b, ?_, hp, fun _ => ?_⟩
        · rw [List.countP_append, hds.completes, Nat.add_comm, List.getElem?_cons_succ, hb]
        · have hsaved : storeSteps ds = [.save runId t.next] := by rw [hds.steps, hcancelled]; rfl
          rw [storeSteps_append, StoreStep.latest_append, hsaved]
          change StoreStep.latest _ (if runId = runId then some t.next else kept) _ = _
          rw [if_pos rfl]
          exact hkept (.inr rfl)
      | true =>
        -- in a run that is cancelled there is no next turn
        obtain ⟨-, -, -, hnothing⟩ := rest.of_cancelled hcancelled
        rw [hkeeps'.toDoes.unique hnothing]
        exact .of_countP rfl

/-- Every turn but the first begins with its state stored; the first one does if its state was
stored before. -/
theorem begun_stored {view : σ → String → Option RunState} (hst : st.IsMap view)
    (hstore : a.store = some st) (h : a.Course runId policy left state s turns v final s') :
    ∀ k b, (a.begunFrom runId policy left state s)[k]? = some b →
      (k ≠ 0 ∨ view s.store runId = some state) → view b.2.store runId = some b.1 := by
  -- the first turn, or the only one, finds what was stored before the loop came to it
  have hfirst {left k : Nat} {state : RunState} {s s₁ : Session σ} {b : RunState × Session σ}
      (halt : (a.halt? left state).run s = (none, s₁)) (hb : [(state, s₁)][k]? = some b)
      (hk : k ≠ 0 ∨ view s.store runId = some state) : view b.2.store runId = some b.1 := by
    cases k with
    | zero =>
      obtain rfl := Option.some.inj hb
      rw [store_of_halt halt]
      exact hk.resolve_left fun hno => hno rfl
    | succ k => simp at hb
  induction h with
  | halted halt => simp [begunFrom_of_halt halt]
  | failed halt step =>
    intro k b hb hk
    rw [begunFrom_of_fault halt step] at hb
    exact hfirst halt hb hk
  | @ended left s t v halt hv =>
    intro k b hb hk
    rw [begunFrom_of_verdict halt hv] at hb
    exact hfirst halt hb hk
  | @goesOn left s s' t turns v final halt hv rest ih =>
    intro k b hb hk
    rw [begunFrom_of_next halt hv] at hb
    cases k with
    | zero => exact hfirst halt hb hk
    | succ k =>
      rw [List.getElem?_cons_succ] at hb
      refine ih k b hb (.inr ?_)
      cases hc : t.after.clock.cancelled with
      | false =>
        rw [store_of_step hstore t.completes, hc]
        change view (st.save runId t.next _).2 runId = _
        rw [hst.save_view, if_pos rfl]
      | true =>
        rw [begunFrom_of_cancelled hc] at hb
        cases hb

end Course

/-! ### Whole runs -/

/-- Before the first turn the store is asked, unless the run is cancelled. -/
theorem begin_keeps (hstore : a.store = some st) {goal : Goal} {budget : Budget} {first : RunState}
    {s s₁ : Session σ} (h : (a.begin_ runId goal budget).run s = (first, s₁)) :
    ∃ loaded, (loaded = [] ∨ loaded = [.loaded runId]) ∧ s.Keeps st loaded s₁ := by
  obtain ⟨x, s₂, hl, h⟩ := run_bind_eq.1 h
  obtain rfl : s₂ = s₁ := by split at h <;> exact (run_pure_eq.1 h).2
  rw [hstore] at hl
  obtain ⟨c, s₃, hlook, hl⟩ := run_bind_eq.1 hl
  have hlooked : s.Keeps st [] s₃ := .of_does (look_does hlook).1 rfl (Plain.look.spares.run_eq hlook)
  cases c with
  | true =>
    obtain ⟨-, rfl⟩ := run_pure_eq.1 hl
    exact ⟨[], .inl rfl, hlooked⟩
  | false =>
    rw [if_neg Bool.false_ne_true] at hl
    refine ⟨_, .inr rfl, hlooked.trans ⟨operate_does hl rfl rfl rfl, ?_⟩⟩
    obtain ⟨-, rfl⟩ := Prod.mk.inj hl
    rfl

variable (a runId) in
/-- After the run what it has stored is removed, however it has ended. -/
theorem closed_keeps (hstore : a.store = some st) (v : Option Verdict) (s : Session σ) :
    s.Keeps st (if v.isSome then [.cleared runId] else []) (a.closed runId v s) := by
  cases v with
  | none => exact .of_does (.refl s) rfl rfl
  | some v =>
    unfold closed
    rw [hstore]
    rcases h : (operate (.cleared runId) (st.clear runId)).run s with ⟨e, s'⟩
    have hcleared := operate_does h rfl rfl rfl
    obtain ⟨-, rfl⟩ := Prod.mk.inj h
    exact ⟨hcleared, rfl⟩

variable (a runId policy) in
/-- **What a run does to its store**, whatever the store is: it is asked once, unless the run is
cancelled by then, it is given the states of the completed turns, until the run is cancelled, and it
is told to remove what it keeps when the run has ended. -/
theorem run_keeps (hstore : a.store = some st) (goal : Goal) (budget : Budget) (s : Session σ) :
    ∃ told s' loads ds, (a.run runId goal budget policy).run s = (told, s') ∧
      s.Keeps st ds s' ∧ (loads = [] ∨ loads = [.load runId]) ∧
      storeSteps ds = loads ++
        ((a.turns runId goal budget policy s).takeWhile fun t => !t.after.clock.cancelled).map
          (fun t => .save runId t.next) ++ (if told.isSome then [.clear runId] else []) ∧
      ∀ kept, Asked (a.AsksAsKept runId (a.begun runId goal budget policy s)
        (a.firstState runId goal budget s) kept) ds := by
  obtain ⟨first, s₁, v, final, s₂, hb, hcourse, hrun⟩ := a.run_course runId policy goal budget s
  obtain ⟨loaded, hloaded, hbegins⟩ := begin_keeps hstore hb
  obtain ⟨ds, hkeeps, hsteps, hasked⟩ := hcourse.keeps hstore
  have hcloses := a.closed_keeps runId hstore v s₂
  refine ⟨_, _, storeSteps loaded, loaded ++ ds ++ _, hrun, (hbegins.trans hkeeps).trans hcloses,
    ?_, ?_, fun kept => ?_⟩
  · exact hloaded.imp (congrArg storeSteps) (congrArg storeSteps)
  · rw [storeSteps_append, storeSteps_append, hsteps]
    cases v <;> rfl
  · have hbegun : a.begunFrom runId policy (first.budget.remaining first.turnIndex) first s₁ =
        a.begun runId goal budget policy s := by rw [begun, hb]
    have hfirst : a.firstState runId goal budget s = first := by rw [firstState, hb]
    rw [hfirst, ← hbegun]
    have hloads : loaded.countP Happening.asksPlanner = 0 ∧
        loaded.countP Happening.completesTurn = 0 ∧
        StoreStep.latest (· = runId) kept (storeSteps loaded) = kept := by
      rcases hloaded with rfl | rfl <;> exact ⟨rfl, rfl, rfl⟩
    refine (Asked.append (.of_countP hloads.1) fun before p after heq => ?_).append (.of_countP ?_)
    · -- what was asked of the store before the first turn leaves it as it is
      obtain ⟨b, hb, hp, hkept⟩ := hasked kept before p after heq
      refine ⟨b, ?_, hp, ?_⟩
      · rwa [List.countP_append, hloads.2.1, Nat.zero_add]
      · rwa [List.countP_append, hloads.2.1, Nat.zero_add, storeSteps_append,
          StoreStep.latest_append, hloads.2.2]
    · cases v <;> rfl

/-! ### Stores that are maps -/

variable (a runId policy) in
/-- **A run and its store**, if the store is a map. Up to the cancellation just the states of the
completed turns are stored, one after the other. Whenever the model is asked in a turn that follows
another one, what is stored is the state of this turn, with whose prompt it is asked. After the run
nothing is stored under its id, and what was stored under any other id still is. -/
theorem run_stores {view : σ → String → Option RunState} (hst : st.IsMap view)
    (hstore : a.store = some st) (goal : Goal) (budget : Budget) (s : Session σ) :
    ∃ told s' hs, (a.run runId goal budget policy).run s = (told, s') ∧
      s'.trace = s.trace ++ hs ∧
      (∃ loads, (loads = [] ∨ loads = [.load runId]) ∧
        storeSteps hs = loads ++
          ((a.turns runId goal budget policy s).takeWhile fun t => !t.after.clock.cancelled).map
            (fun t => .save runId t.next) ++ (if told.isSome then [.clear runId] else [])) ∧
      (∀ k t, (a.turns runId goal budget policy s)[k]? = some t →
        t.next.turnIndex = (a.firstState runId goal budget s).turnIndex + k + 1) ∧
      (∀ before p after, hs = before ++ .plannerAsked p :: after →
        ∃ b, (a.begun runId goal budget policy s)[before.countP Happening.completesTurn]? = some b ∧
          p = a.planner.prompt a.executor.registry b.1 ∧
          (before.countP Happening.completesTurn ≠ 0 →
            (st.load runId (st.after (storeSteps before) s.store)).1 = .ok (some b.1) ∧
              (st.load runId b.2.store).1 = .ok (some b.1))) ∧
      s'.store = st.after (storeSteps hs) s.store ∧
      (told.isSome → (st.load runId s'.store).1 = .ok none) ∧
      ∀ id, id ≠ runId → (st.load id s'.store).1 = (st.load id s.store).1 := by
  obtain ⟨told, s', loads, ds, hrun, hkeeps, hloads, hsteps, hasked⟩ :=
    a.run_keeps runId policy hstore goal budget s
  obtain ⟨c⟩ := a.exists_chronicle runId policy goal budget s
  obtain ⟨hs, htrace, hdeeds, -⟩ := hkeeps.record
  have hstored := hkeeps.store
  have hds : storeSteps ds = storeSteps hs := by rw [← hdeeds, storeSteps_deeds]
  rw [hds] at hsteps hstored
  refine ⟨told, s', hs, hrun, htrace, ⟨loads, hloads, hsteps⟩, fun k t ht => ?_,
    fun before p after heq => ?_, hstored, fun htold => ?_, fun id hid => ?_⟩
  · rw [t.next_turnIndex, c.before_turnIndex ht, c.firstState_eq]
  · obtain ⟨b, hb, hp, hkept⟩ := hasked (view s.store runId) (deeds before) p (deeds after)
      (by rw [← hdeeds, heq, deeds_append]; rfl)
    rw [countP_deeds rfl] at hb hkept
    rw [storeSteps_deeds] at hkept
    refine ⟨b, hb, hp, fun hlater => ⟨?_, ?_⟩⟩
    · rw [hst.load_answer, hst.view_after, hkept (.inl hlater)]
    · rw [← c.begunFrom_eq] at hb
      rw [hst.load_answer, c.course.begun_stored hst hstore _ b hb (.inl hlater)]
  · rw [hst.load_answer, hstored, hst.view_after, hsteps, if_pos htold, StoreStep.latest_concat,
      StoreStep.update, if_pos rfl]
  · have hown : ∀ step ∈ storeSteps hs, step.runId = runId := by
      intro step hstep
      rw [hsteps] at hstep
      rcases List.mem_append.1 hstep with hstep | hstep
      · rcases List.mem_append.1 hstep with hstep | hstep
        · rcases hloads with rfl | rfl
          · cases hstep
          · rw [List.mem_singleton.1 hstep]
            rfl
        · obtain ⟨t, -, rfl⟩ := List.mem_map.1 hstep
          rfl
      · split at hstep
        · rw [List.mem_singleton.1 hstep]
          rfl
        · cases hstep
    have hother : ∀ step ∈ storeSteps hs, ∀ id', id' = id → ¬ step.Writes id' := by
      rintro step hstep _ rfl hwrites
      exact hid (hwrites.runId_eq.symm.trans (hown step hstep))
    rw [hst.load_answer, hst.load_answer, hstored, hst.view_after,
      StoreStep.latest_of_not_writes hother]

open StateStore (Table)

/-- Reads a page, and then stops. -/
def reader : Agent Table :=
  .rehearsed [.rehearsed "read" [.output (.string "page")]] [.calls "read", .stops "read it"]

/-- An outside in which the state of another run is stored. -/
def besideAnother : Session Table :=
  .start (.start false .never) [] (Keyed.empty.insert "another" (.initial .rehearsed .standard))

theorem reader_run :
    ((reader.run "run" .rehearsed .standard .standard).run besideAnother).1.isSome = true ∧
      (reader.turns "run" .rehearsed .standard .standard besideAnother).length = 2 ∧
      ∀ t ∈ reader.turns "run" .rehearsed .standard .standard besideAnother,
        t.after.clock.cancelled = false := by decide +kernel

/-- Both turns are stored, and nothing but the state of the other run is left. -/
theorem run_stores_reader : StateStore.memory.IsMap Keyed.get? ∧ reader.store = some .memory ∧
    ∃ told s' hs first second loads,
      (reader.run "run" .rehearsed .standard .standard).run besideAnother = (told, s') ∧
      s'.trace = hs ∧ (loads = [] ∨ loads = [.load "run"]) ∧
      storeSteps hs = loads ++ [.save "run" first, .save "run" second, .clear "run"] ∧
      first.turnIndex + 1 = second.turnIndex ∧
      (StateStore.memory.load "run" s'.store).1 = .ok none ∧
      (StateStore.memory.load "another" s'.store).1 =
        .ok (some (.initial .rehearsed .standard)) := by
  obtain ⟨htold, hlength, hopen⟩ := reader_run
  obtain ⟨told, s', hs, hrun, htrace, ⟨loads, hloads, hsteps⟩, hindex, -, -, hnone, hother⟩ :=
    reader.run_stores "run" .standard StateStore.memory_isMap rfl .rehearsed .standard besideAnother
  rw [hrun] at htold
  obtain ⟨t, u, hturns⟩ : ∃ t u, reader.turns "run" .rehearsed .standard .standard besideAnother =
      [t, u] := List.length_eq_two.1 hlength
  have ht := hindex 0 t (by rw [hturns]; rfl)
  have hu := hindex 1 u (by rw [hturns]; rfl)
  rw [hturns] at hsteps hopen
  refine ⟨StateStore.memory_isMap, rfl, told, s', hs, t.next, u.next, loads, hrun, htrace, hloads,
    ?_, by omega, hnone htold, (hother "another" (by decide)).trans ?_⟩
  · rw [hsteps, if_pos htold, List.takeWhile_cons, hopen t (by simp), List.takeWhile_cons,
      hopen u (by simp), List.append_assoc]
    rfl
  · rfl

end Agent

end Conductor

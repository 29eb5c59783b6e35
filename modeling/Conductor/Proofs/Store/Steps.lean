import Conductor.Proofs.Keyed
import Conductor.Store.Memory
import Mathlib.Data.List.Induction

/-!
# Steps of a store

What a store answers, and what it holds, when it is asked to save, load and clear again and again.

* `StateStore.answer`, `StateStore.after` : one step, and what is left after many;
* `StoreStep.latest`, `StoreStep.latest_eq_some_iff` : **the state of the latest save under one of
  some ids that no clear under one of them follows;**
* `StateStore.IsMap` : the store is a map from ids to states and never fails;
* `StateStore.IsMap.view_after`, `StateStore.memory_isMap` : **a store that is a map holds the
  latest state of every id, and the store in memory is one.**
-/

namespace Conductor

/-- One thing that a store is asked to do. -/
inductive StoreStep where
  | save (runId : String) (s : RunState)
  | load (runId : String)
  | clear (runId : String)

namespace StoreStep

/-- The id that a step is about. -/
def runId : StoreStep → String
  | .save id _ => id
  | .load id => id
  | .clear id => id

/-- The state under one of some ids, after a step, when it was `kept` before. -/
def update (same : String → Prop) [DecidablePred same] (kept : Option RunState) :
    StoreStep → Option RunState
  | .save id s => if same id then some s else kept
  | .load _ => kept
  | .clear id => if same id then none else kept

variable (same : String → Prop) [DecidablePred same] {kept : Option RunState} {step : StoreStep}
  {steps : List StoreStep} {s : RunState}

/-- The state that was saved last under one of some ids and not cleared since; `kept` if there was
no such step. -/
def latest (kept : Option RunState) (steps : List StoreStep) : Option RunState :=
  steps.foldl (update same) kept

theorem latest_append (kept : Option RunState) (before after : List StoreStep) :
    latest same kept (before ++ after) = latest same (latest same kept before) after :=
  List.foldl_append

theorem latest_concat (kept : Option RunState) (steps : List StoreStep) (step : StoreStep) :
    latest same kept (steps ++ [step]) = update same (latest same kept steps) step :=
  latest_append same kept steps [step]

/-- What a step is due to be answered after others, by a map whose keys are made of ids: loading
answers with the latest state under an id of the same key. -/
def due (key : String → String) (before : List StoreStep) : StoreStep → Option RunState
  | .save .. => none
  | .load id => latest (key · = key id) none before
  | .clear _ => none

/-- The step replaces or removes what is kept under an id. -/
def Writes (id : String) : StoreStep → Prop
  | .save id' _ => id' = id
  | .load _ => False
  | .clear id' => id' = id

variable {same}

theorem Writes.runId_eq {id : String} (h : step.Writes id) : step.runId = id := by
  cases step with
  | save | clear => exact h
  | load => exact h.elim

theorem update_of_not_writes (h : ∀ id, same id → ¬ step.Writes id) :
    update same kept step = kept := by
  cases step with
  | save id s => exact if_neg fun hid => h id hid rfl
  | load id => rfl
  | clear id => exact if_neg fun hid => h id hid rfl

theorem latest_of_not_writes (h : ∀ step ∈ steps, ∀ id, same id → ¬ step.Writes id) :
    latest same kept steps = kept := by
  induction steps with
  | nil => rfl
  | cons step steps ih =>
    rw [latest, List.foldl_cons, update_of_not_writes (h step (List.mem_cons_self ..))]
    exact ih fun t ht => h t (List.mem_cons_of_mem _ ht)

/-- **The latest state is that of a save under one of the ids, with no save and no clear under one
of them behind it.** -/
theorem latest_eq_some_iff :
    latest same none steps = some s ↔
      ∃ before id after, steps = before ++ .save id s :: after ∧ same id ∧
        ∀ step ∈ after, ∀ id', same id' → ¬ step.Writes id' := by
  refine ⟨fun h => ?_, ?_⟩
  · induction steps using List.reverseRecOn with
    | nil => cases h
    | append_singleton steps step ih =>
      have hpass (hkeep : ∀ id, same id → ¬ step.Writes id) (h : latest same none steps = some s) :
          ∃ before id after, steps ++ [step] = before ++ .save id s :: after ∧ same id ∧
            ∀ step ∈ after, ∀ id', same id' → ¬ step.Writes id' := by
        obtain ⟨before, id, after, rfl, hid, hafter⟩ := ih h
        refine ⟨before, id, after ++ [step], by simp, hid, fun t ht => ?_⟩
        rcases List.mem_append.1 ht with ht | ht
        · exact hafter t ht
        · exact List.mem_singleton.1 ht ▸ hkeep
      rw [latest_concat] at h
      cases step with
      | save id s' =>
        by_cases hid : same id
        · rw [update, if_pos hid, Option.some.injEq] at h
          exact ⟨steps, id, [], by rw [h], hid, fun _ ht => absurd ht List.not_mem_nil⟩
        · rw [update, if_neg hid] at h
          exact hpass (fun id' hid' heq => hid (heq ▸ hid')) h
      | load id => exact hpass (fun _ _ hw => hw) h
      | clear id =>
        by_cases hid : same id
        · rw [update, if_pos hid] at h
          cases h
        · rw [update, if_neg hid] at h
          exact hpass (fun id' hid' heq => hid (heq ▸ hid')) h
  · rintro ⟨before, id, after, rfl, hid, hafter⟩
    rw [latest_append, latest, List.foldl_cons, update, if_pos hid]
    exact latest_of_not_writes hafter

/-- A map answers the same whether its keys are the ids or are made of them, if the ids of all steps
are told apart. -/
theorem due_congr {key : String → String} {before : List StoreStep}
    (h : ∀ t ∈ before, key t.runId = key step.runId → t.runId = step.runId) :
    step.due key before = step.due id before := by
  have hlatest (runId : String) (h : ∀ t ∈ before, key t.runId = key runId → t.runId = runId)
      (kept : Option RunState) :
      latest (key · = key runId) kept before = latest (· = runId) kept before := by
    clear * - h
    induction before generalizing kept with
    | nil => rfl
    | cons t rest ih =>
      have hiff : key t.runId = key runId ↔ t.runId = runId :=
        ⟨h t (List.mem_cons_self ..), congrArg key⟩
      have hupdate : update (key · = key runId) kept t = update (· = runId) kept t := by
        cases t with
        | save runId' s => exact if_congr hiff rfl rfl
        | load runId' => rfl
        | clear runId' => exact if_congr hiff rfl rfl
      rw [latest, List.foldl_cons, hupdate]
      exact ih (fun t ht => h t (List.mem_cons_of_mem _ ht)) _
  cases step with
  | save runId s => rfl
  | load runId => exact hlatest runId h none
  | clear runId => rfl

end StoreStep

namespace StateStore

variable {σ : Type} (st : StateStore σ)

/-- What a store answers to a step, and what it holds then. Saving and clearing answer with no
state. -/
def answer (step : StoreStep) (x : σ) : Except String (Option RunState) × σ :=
  match step with
  | .save id s => let (r, x) := st.save id s x; (r.map fun _ => none, x)
  | .load id => st.load id x
  | .clear id => let (r, x) := st.clear id x; (r.map fun _ => none, x)

/-- What a store holds after some steps. -/
def after (steps : List StoreStep) (x : σ) : σ := steps.foldl (fun x step => (st.answer step x).2) x

theorem after_append (before rest : List StoreStep) (x : σ) :
    st.after (before ++ rest) x = st.after rest (st.after before x) :=
  List.foldl_append

theorem after_concat (steps : List StoreStep) (step : StoreStep) (x : σ) :
    st.after (steps ++ [step]) x = (st.answer step (st.after steps x)).2 :=
  st.after_append steps [step] x

/-- The store is a map from ids to states, which shows through `view`, and it never fails. -/
structure IsMap (view : σ → String → Option RunState) : Prop where
  load_answer : ∀ id x, (st.load id x).1 = .ok (view x id)
  load_view : ∀ id x, view (st.load id x).2 = view x
  save_answer : ∀ id s x, (st.save id s x).1 = .ok ()
  save_view : ∀ id s x id', view (st.save id s x).2 id' = if id = id' then some s else view x id'
  clear_answer : ∀ id x, (st.clear id x).1 = .ok ()
  clear_view : ∀ id x id', view (st.clear id x).2 id' = if id = id' then none else view x id'

namespace IsMap

variable {st} {view : σ → String → Option RunState}

theorem view_answer (h : st.IsMap view) (step : StoreStep) (x : σ) (id : String) :
    view (st.answer step x).2 id = StoreStep.update (· = id) (view x id) step := by
  cases step with
  | save id' s => exact h.save_view id' s x id
  | load id' => exact congrFun (h.load_view id' x) id
  | clear id' => exact h.clear_view id' x id

/-- **A store that is a map holds, under every id, the state that was saved last and not cleared
since.** -/
theorem view_after (h : st.IsMap view) (steps : List StoreStep) (x : σ) (id : String) :
    view (st.after steps x) id = StoreStep.latest (· = id) (view x id) steps := by
  induction steps generalizing x with
  | nil => rfl
  | cons step steps ih =>
    rw [after, List.foldl_cons, ← after, ih, h.view_answer]
    rfl

/-- A store that is a map answers as one, when it is empty at first. -/
theorem answer_eq (h : st.IsMap view) {x : σ} (hx : ∀ id, view x id = none)
    (before : List StoreStep) (step : StoreStep) :
    (st.answer step (st.after before x)).1 = .ok (step.due id before) := by
  cases step with
  | save id s =>
    change Except.map _ _ = _
    rw [h.save_answer]
    rfl
  | load id =>
    change (st.load id _).1 = _
    rw [h.load_answer, h.view_after, hx]
    rfl
  | clear id =>
    change Except.map _ _ = _
    rw [h.clear_answer]
    rfl

end IsMap

/-- **The store in memory is a map.** -/
theorem memory_isMap : memory.IsMap Keyed.get? where
  load_answer _ _ := rfl
  load_view _ _ := rfl
  save_answer _ _ _ := rfl
  save_view id s t id' := by
    change (Keyed.insert t id s).get? id' = _
    split
    · subst id'
      exact t.get?_insert_self
    · exact t.get?_insert_of_ne (Ne.symm ‹_›)
  clear_answer _ _ := rfl
  clear_view id t id' := by
    change (Keyed.erase t id).get? id' = _
    split
    · subst id'
      exact t.get?_erase_self
    · exact t.get?_erase_of_ne (Ne.symm ‹_›)

theorem memory_answer (before : List StoreStep) (step : StoreStep) :
    (memory.answer step (memory.after before .empty)).1 = .ok (step.due id before) :=
  memory_isMap.answer_eq (fun _ => rfl) before step

end StateStore

end Conductor

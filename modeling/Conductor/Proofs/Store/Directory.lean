import Conductor.Proofs.Store.Files
import Conductor.Proofs.Store.Steps
import Conductor.Proofs.Stored
import Conductor.Store.Directory

/-!
# What a store in a directory keeps

The store of a directory keeps a state under the name of a file, so it is a map from the names of
files to states, and ids that share the name of a file share their state.

* `StateStore.fileName_eq_iff` : **which ids share the name of a file;**
* `StateStore.Readable` : a state that is read back from the text of its file;
* `StateStore.directory_load_of_save` : what is loaded after a state was saved;
* `StateStore.directory_step` : one step of a store in a directory;
* `StateStore.directory_after` : what the directory holds after any steps;
* `StateStore.directory_keyed_by_fileName` : **a store in a directory answers as a map whose keys
  are the names of files, and agrees with a store in memory on just those ids whose names differ.**
-/

namespace Conductor

namespace StateStore

/-! ### Names of files -/

/-- The character that stands in the name of a file for a character of an id. -/
def nameChar (c : Char) : Char := if isNameChar c then c else '_'

/-- A character that the name of a file does not tell from others. -/
def Blurred (c : Char) : Prop := c = '_' ∨ isNameChar c = false

variable {c d : Char}

theorem blurred_iff : Blurred c ↔ nameChar c = '_' := by
  rw [Blurred, nameChar]
  split
  next h => simp [h]
  next h => simp [Bool.eq_false_iff.2 h]

theorem nameChar_eq_self (h : ¬ Blurred c) : nameChar c = c :=
  if_pos (Bool.of_not_eq_false fun hc => h (.inr hc))

theorem nameChar_eq_iff : nameChar c = nameChar d ↔ c = d ∨ Blurred c ∧ Blurred d := by
  constructor
  · intro h
    by_cases hc : Blurred c
    · exact .inr ⟨hc, blurred_iff.2 (h ▸ blurred_iff.1 hc)⟩
    · have hd : ¬ Blurred d := fun hd => hc (blurred_iff.2 (h ▸ blurred_iff.1 hd))
      exact .inl (by rw [← nameChar_eq_self hc, h, nameChar_eq_self hd])
  · rintro (rfl | ⟨hc, hd⟩)
    · rfl
    · rw [blurred_iff.1 hc, blurred_iff.1 hd]

/-- **Two ids share the name of a file just if they differ in nothing but blurred characters.** -/
theorem fileName_eq_iff {a b : String} :
    fileName a = fileName b ↔
      List.Forall₂ (fun c d => c = d ∨ Blurred c ∧ Blurred d) a.toList b.toList := by
  have hchars : fileName a = fileName b ↔ a.toList.map nameChar = b.toList.map nameChar := by
    rw [fileName, fileName, ← String.toList_inj, String.toList_append, String.toList_append,
      List.append_cancel_right_eq, String.toList_ofList, String.toList_ofList]
    rfl
  rw [hchars, ← List.forall₂_eq_eq_eq, List.forall₂_map_left_iff, List.forall₂_map_right_iff]
  simp only [nameChar_eq_iff]

theorem utf8ByteSize_ofList {l : List Char} (h : ∀ c ∈ l, c.utf8Size = 1) :
    (String.ofList l).utf8ByteSize = l.length := by
  induction l with
  | nil => rfl
  | cons c l ih =>
    rw [String.ofList_cons, String.utf8ByteSize_append, String.utf8ByteSize_singleton,
      h c (List.mem_cons_self ..), ih fun d hd => h d (List.mem_cons_of_mem _ hd),
      List.length_cons, Nat.add_comm]

theorem utf8Size_of_isNameChar (h : isNameChar c = true) : c.utf8Size = 1 := by
  have hle {d : Char} (hd : d.val ≤ 127) (hcd : c ≤ d) : c.val ≤ 127 := UInt32.le_trans hcd hd
  rw [Char.utf8Size_eq_one_iff]
  simp only [isNameChar, Bool.or_eq_true, Bool.and_eq_true, decide_eq_true_eq, beq_iff_eq] at h
  rcases h with (((⟨-, h⟩ | ⟨-, h⟩) | ⟨-, h⟩) | rfl) | rfl
  · exact hle (by decide) h
  · exact hle (by decide) h
  · exact hle (by decide) h
  · decide
  · decide

/-- The name of a file is five bytes longer than the id has characters. -/
theorem utf8ByteSize_fileName (id : String) : (fileName id).utf8ByteSize = id.length + 5 := by
  rw [fileName, String.utf8ByteSize_append, utf8ByteSize_ofList, List.length_map,
    String.length_toList]
  · rfl
  · intro c hc
    obtain ⟨d, -, rfl⟩ := List.mem_map.1 hc
    split
    · exact utf8Size_of_isNameChar ‹_›
    · rfl

/-! ### Steps -/

/-- The state is read back from the text of its file. -/
def Readable (s : RunState) : Prop := ofFileText (fileText s) = .ok (some s)

theorem readable_of_storable {s : RunState} (h : s.Storable)
    (hdepth : (RunState.codec.encode s).depth ≤ 127) : Readable s := by
  rw [Readable, ofFileText, fileText, ((RunState.stored h).reads_back hdepth).1]

/-- A step that the files of a directory allow: the name of its file is not too long, and what it
saves is read back. -/
structure Filed (step : StoreStep) : Prop where
  short : step.runId.length ≤ 250
  readable : ∀ id s, step = .save id s → Readable s

theorem filed_save {runId : String} {s : RunState} (hshort : runId.length ≤ 250) (hs : Readable s) :
    Filed (.save runId s) :=
  ⟨hshort, fun _ _ h => (StoreStep.save.inj h).2 ▸ hs⟩

theorem filed_load {runId : String} (hshort : runId.length ≤ 250) : Filed (.load runId) :=
  ⟨hshort, fun _ _ h => by cases h⟩

/-- The name of a file that is made of an id. -/
def IsFileName (name : String) : Prop := ∃ runId, fileName runId = name

/-- The directory holds just the states of a table, each in the file of its name, and all of them
are read back. -/
structure Holds (dir : List String) (states : String → Option RunState) (fs : Files) : Prop where
  folder : fs.Folder dir IsFileName fun name => (states name).map fileText
  readable : ∀ name s, states name = some s → Readable s

variable {dir : List String} {fs : Files} {states : String → Option RunState} {step : StoreStep}
  {steps before : List StoreStep} {runId : String}

theorem name_short (h : runId.length ≤ 250) :
    (fileName runId).utf8ByteSize ≤ Files.longestName := by
  rw [utf8ByteSize_fileName, Files.longestName]
  omega

/-- **What a file holds after a state was saved is what is loaded.** -/
theorem directory_load_of_save {s : RunState} {fs' : Files}
    (h : (directory dir).save runId s fs = (.ok (), fs')) :
    (directory dir).load runId fs' = (ofFileText (fileText s), fs') := by
  simp only [directory] at h ⊢
  split at h
  · cases (Prod.mk.inj h).1
  · split at h
    · cases (Prod.mk.inj h).1
    next hwrite =>
      obtain rfl := (Prod.mk.inj h).2
      rw [Files.read_of_write hwrite]

theorem directory_load (h : Holds dir states fs) (hid : runId.length ≤ 250) :
    (directory dir).load runId fs = (.ok (states (fileName runId)), fs) := by
  have hread := h.folder.read_eq ⟨runId, rfl⟩ (name_short hid)
  cases hs : states (fileName runId) with
  | none =>
    simp only [hs, Option.map_none] at hread
    simp only [directory, hread]
  | some s =>
    simp only [hs, Option.map_some] at hread
    simp only [directory, hread]
    rw [h.readable _ s hs]

/-- In a directory that can be written every state can be saved. -/
theorem directory_save_ok {texts : String → Option String} (h : fs.Folder dir IsFileName texts)
    (hid : runId.length ≤ 250) (s : RunState) :
    ∃ fs', (directory dir).save runId s fs = (.ok (), fs') ∧
      fs'.Folder dir IsFileName
        (fun name => if fileName runId = name then some (fileText s) else texts name) := by
  obtain ⟨made, written, hmake, hwrite, hfolder⟩ :=
    h.write_ok ⟨runId, rfl⟩ (name_short hid) (fileText s)
  exact ⟨written, by simp only [directory, hmake, hwrite], hfolder⟩

theorem directory_save {s : RunState} (h : Holds dir states fs) (hid : runId.length ≤ 250)
    (hs : Readable s) :
    ∃ fs', (directory dir).save runId s fs = (.ok (), fs') ∧
      Holds dir (fun name => if fileName runId = name then some s else states name) fs' := by
  obtain ⟨fs', hsave, hfolder⟩ := directory_save_ok h.folder hid s
  refine ⟨fs', hsave, ?_, fun name s' hs' => ?_⟩
  · simpa only [apply_ite (Option.map fileText), Option.map_some] using hfolder
  · split at hs'
    · exact Option.some.inj hs' ▸ hs
    · exact h.readable name s' hs'

theorem directory_clear (h : Holds dir states fs) (hid : runId.length ≤ 250) :
    ∃ fs', (directory dir).clear runId fs = (.ok (), fs') ∧
      Holds dir (fun name => if fileName runId = name then none else states name) fs' := by
  have hreadable : ∀ name s, (if fileName runId = name then none else states name) = some s →
      Readable s := by
    intro name s hs
    split at hs
    · cases hs
    · exact h.readable name s hs
  rcases h.folder.remove_eq ⟨runId, rfl⟩ (name_short hid) with
    ⟨hnone, hremove⟩ | ⟨left, hremove, hfolder⟩
  · -- nothing was there, so that erasing it from the table changes nothing
    refine ⟨fs, by simp only [directory, hremove], ?_, hreadable⟩
    have hsame (name : String) :
        (if fileName runId = name then none else states name) = states name := by
      split
      next heq => exact heq ▸ (Option.map_eq_none_iff.1 hnone).symm
      next => rfl
    simpa only [hsame] using h.folder
  · refine ⟨left, by simp only [directory, hremove], ?_, hreadable⟩
    simpa only [apply_ite (Option.map fileText), Option.map_none] using hfolder

/-- A step does to the states, by the names of their files, what it does to those of a table. -/
theorem directory_step (h : Holds dir states fs) (hstep : Filed step) :
    Holds dir (fun name => step.update (fileName · = name) (states name))
      ((directory dir).answer step fs).2 := by
  cases step with
  | save id s =>
    obtain ⟨fs', hsave, hholds⟩ :=
      directory_save h (show id.length ≤ 250 from hstep.short) (hstep.readable id s rfl)
    simp only [answer, hsave]
    exact hholds
  | load id =>
    simp only [answer, directory_load h (show id.length ≤ 250 from hstep.short)]
    exact h
  | clear id =>
    obtain ⟨fs', hclear, hholds⟩ := directory_clear h (show id.length ≤ 250 from hstep.short)
    simp only [answer, hclear]
    exact hholds

/-- After any steps the directory holds the state that was saved last, and not cleared since, under
an id with the name of its file. -/
theorem directory_after (hfs : fs.Folder dir IsFileName fun _ => none)
    (hsteps : ∀ step ∈ steps, Filed step) :
    Holds dir (fun name => StoreStep.latest (fileName · = name) none steps)
      ((directory dir).after steps fs) := by
  induction steps using List.reverseRecOn with
  | nil => exact ⟨hfs, fun _ _ hnone => by cases hnone⟩
  | append_singleton steps step ih =>
    simp only [StoreStep.latest_concat, after_concat]
    refine directory_step (ih fun t ht => hsteps t (List.mem_append_left _ ht)) ?_
    exact hsteps step (List.mem_append_right _ (List.mem_singleton_self step))

/-- Every step is answered by the name of the file of its id. -/
theorem directory_due (hfs : fs.Folder dir IsFileName fun _ => none)
    (hbefore : ∀ t ∈ before, Filed t) (hstep : Filed step) :
    ((directory dir).answer step ((directory dir).after before fs)).1 =
      .ok (step.due fileName before) := by
  have h := directory_after hfs hbefore
  cases step with
  | save id s =>
    obtain ⟨fs', hsave, -⟩ :=
      directory_save h (show id.length ≤ 250 from hstep.short) (hstep.readable id s rfl)
    simp only [answer, hsave]
    rfl
  | load id =>
    simp only [answer, directory_load h (show id.length ≤ 250 from hstep.short)]
    rfl
  | clear id =>
    obtain ⟨fs', hclear, -⟩ := directory_clear h (show id.length ≤ 250 from hstep.short)
    simp only [answer, hclear]
    rfl

/-! ### Beside a store in memory -/

/-- **A store in a directory answers as a map whose keys are the names of files, and a store in
memory as a map whose keys are the ids. So the two agree on some ids just if no two of them share
the name of a file**, and ids share a name if they differ in nothing but blurred characters. -/
theorem directory_keyed_by_fileName (hfs : fs.Folder dir IsFileName fun _ => none) :
    (∀ before step, (∀ t ∈ before ++ [step], Filed t) →
      ((directory dir).answer step ((directory dir).after before fs)).1 =
          .ok (step.due fileName before) ∧
        (memory.answer step (memory.after before .empty)).1 = .ok (step.due id before)) ∧
    (∀ ids : String → Prop, (∀ id, ids id → id.length ≤ 250) →
      ((∀ before step, (∀ t ∈ before ++ [step], Filed t ∧ ids t.runId) →
          ((directory dir).answer step ((directory dir).after before fs)).1 =
            (memory.answer step (memory.after before .empty)).1) ↔
        ∀ a b, ids a → ids b → fileName a = fileName b → a = b)) ∧
    ∀ a b, fileName a = fileName b ↔
      List.Forall₂ (fun c d => c = d ∨ Blurred c ∧ Blurred d) a.toList b.toList := by
  have hdirectory (before : List StoreStep) (step : StoreStep)
      (h : ∀ t ∈ before ++ [step], Filed t) :
      ((directory dir).answer step ((directory dir).after before fs)).1 =
        .ok (step.due fileName before) :=
    directory_due hfs (fun t ht => h t (List.mem_append_left _ ht))
      (h step (List.mem_append_right _ (List.mem_singleton_self step)))
  refine ⟨fun before step h => ⟨hdirectory before step h, memory_answer before step⟩,
    fun ids hshort => ⟨fun hagree a b ha hb hname => ?_, fun hinj before step h => ?_⟩,
    fun a b => fileName_eq_iff⟩
  · -- what is saved under the one id is loaded under the other
    obtain ⟨s, hread⟩ : ∃ s, Readable s :=
      ⟨measured, readable_of_storable measured_storable (by decide)⟩
    have hsteps : ∀ t ∈ [StoreStep.save a s] ++ [.load b], Filed t ∧ ids t.runId := by
      intro t ht
      rcases List.mem_cons.1 ht with rfl | ht
      · exact ⟨filed_save (hshort a ha) hread, ha⟩
      · obtain rfl := List.mem_singleton.1 ht
        exact ⟨filed_load (hshort b hb), hb⟩
    have h := hagree _ _ hsteps
    rw [hdirectory _ _ fun t ht => (hsteps t ht).1, memory_answer, Except.ok.injEq] at h
    change (if fileName a = fileName b then some s else none) =
      if a = b then some s else none at h
    rw [if_pos hname] at h
    split at h
    · assumption
    · cases h
  · rw [hdirectory _ _ fun t ht => (h t ht).1, memory_answer]
    have hstep := h step (List.mem_append_right _ (List.mem_singleton_self step))
    rw [StoreStep.due_congr fun t ht hkey =>
      hinj _ _ (h t (List.mem_append_left _ ht)).2 hstep.2 hkey]

theorem empty_folder : Files.Folder [] ["runs"] IsFileName fun _ => none where
  short := by
    intro name hname
    rw [List.mem_singleton.1 hname]
    decide
  makes := ⟨[(["runs"], .directory)], rfl⟩
  opened := .inr fun _ _ => rfl
  holds _ _ := rfl

theorem filed_saved_loaded :
    ∀ t ∈ [StoreStep.save "a b" measured] ++ [.load "a_b"], Filed t := by
  intro t ht
  rcases List.mem_cons.1 ht with rfl | ht
  · exact filed_save (by decide) (readable_of_storable measured_storable (by decide))
  · obtain rfl := List.mem_singleton.1 ht
    exact filed_load (by decide)

theorem due_saved_loaded (s : RunState) :
    StoreStep.due fileName [.save "a b" s] (.load "a_b") = some s ∧
      StoreStep.due id [.save "a b" s] (.load "a_b") = none := by
  have hname : fileName "a b" = fileName "a_b" := by decide
  have hid : "a b" ≠ "a_b" := by decide
  constructor
  · change (if fileName "a b" = fileName "a_b" then some s else none) = some s
    rw [if_pos hname]
  · change (if "a b" = "a_b" then some s else none) = none
    rw [if_neg hid]

/-- A directory that is not yet made, and two ids that share the name of a file. -/
theorem directory_keyed_by_fileName_blurred :
    (Files.Folder [] ["runs"] IsFileName fun _ => none) ∧
      ((directory ["runs"]).answer (.load "a_b")
        ((directory ["runs"]).after [.save "a b" measured] [])).1 = .ok (some measured) ∧
      (memory.answer (.load "a_b") (memory.after [.save "a b" measured] .empty)).1 = .ok none := by
  have h := (directory_keyed_by_fileName empty_folder).1 _ _ filed_saved_loaded
  rw [(due_saved_loaded measured).1, (due_saved_loaded measured).2] at h
  exact ⟨empty_folder, h⟩

/-- A store in a directory is no map from ids: the state that was saved under one id is loaded under
another. -/
theorem directory_not_keyed_by_id :
    ¬ ∀ before step, (∀ t ∈ before ++ [step], Filed t) →
      ((directory ["runs"]).answer step ((directory ["runs"]).after before [])).1 =
        .ok (step.due id before) := by
  intro h
  have hid := h _ _ filed_saved_loaded
  rw [directory_due empty_folder (fun t ht => filed_saved_loaded t (List.mem_append_left _ ht))
    (filed_saved_loaded _ (List.mem_append_right _ (List.mem_singleton_self _))),
    (due_saved_loaded measured).1, (due_saved_loaded measured).2] at hid
  exact nomatch Except.ok.inj hid

end StateStore

end Conductor

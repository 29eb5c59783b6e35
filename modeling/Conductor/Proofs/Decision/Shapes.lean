import Conductor.Proofs.Decision.Canonical

/-!
# Decisions in other shapes

A model may put the fields of a variant under a key of their own instead of beside the key `action`.
What such an object stands for is what a canonical object stands for: a call is that of the tool in
its registered spelling, with the default arguments of that tool if it has none; a stop is the same
stop; and a question is the same question if it asks for something, and otherwise ends the run.

* `Decision.callUnder`, `Decision.stopUnder`, `Decision.askUserUnder` : the other shapes;
* `Decision.filledArgs` : the arguments with those of the tool in place of none;
* `Decision.ofCall_eq`, `Decision.ofAskUser_eq` : what a call and a question under their keys are
  read as;
* `Decision.alternate_shapes_agree` : **replies in the other shapes are read like canonical ones.**
-/

namespace Conductor

open Json

namespace Decision

variable {s : String}

/-! ### The shapes -/

/-- The fields of a call under a key of their own. -/
def callFields (name : String) (args : Json) : Json :=
  .object [("args", args), ("name", .string name)]

/-- A call under the key `call_tool`. -/
def callUnder (name : String) (args : Json) : Json := .object [("call_tool", callFields name args)]

/-- A stop under the key `stop`. -/
def stopUnder (r : String) : Json := .object [("stop", .object [("reason", .string r)])]

/-- The fields of a question, which may leave out what it asks for. -/
def askUserMembers (q : String) : Option (List String) → Json
  | some fields => .object [("missing_fields", .strings fields), ("question", .string q)]
  | none => .object [("question", .string q)]

/-- A question under the key `ask_user`. -/
def askUserUnder (q : String) (fields : Option (List String)) : Json :=
  .object [("ask_user", askUserMembers q fields)]

/-- The arguments of a call of the tool: `null` and no arguments are those that the tool has by
default, if it has any. -/
def filledArgs (tool : String) (args : Json) : Json :=
  if lacksArgs args then (defaultArgs? tool).getD args else args

/-! ### What they are read as -/

/-- **A call under its key is one of the tool in its registered spelling.** -/
theorem ofCall_eq {name : String} {args : Json} (h : args.Ordered) :
    ofCall (callFields name args) =
      callOf (canonicalToolName name) (filledArgs (canonicalToolName name) args) := by
  have hformat : callFormat.ofValue (callFields name args) = .ok (.object
      [("name", .string name), ("args", args)]) :=
    readAs_record (by decide) (.cons (.string name) (.cons (.any h) .nil)) rfl (.swap ..)
      (Document.holds_ofJson _)
  rw [ofCall, readUnder, hformat]
  simp only [part?, get?, List.lookup_cons, String.reduceBEq, Option.bind_eq_bind, Option.bind_some,
    text?, Option.pure_def, Option.getD_some, filledArgs]

/-- **A question under its key that asks for nothing in particular is a stop.** -/
theorem ofAskUser_eq (q : String) (fields : Option (List String)) :
    ofAskUser (askUserMembers q fields) =
      .ok (if (fields.getD []).isEmpty then .stop q else .askUser q (fields.getD [])) := by
  cases fields with
  | none => rfl
  | some fields =>
    have hformat : askUserFormat.ofValue (askUserMembers q (some fields)) = .ok (.object
        [("question", .string q), ("missing_fields", .strings fields)]) :=
      readAs_record (by decide) (.cons (.string q) (.cons (.strings fields) .nil)) rfl (.swap ..)
        (Document.holds_ofJson _)
    rw [ofAskUser, readUnder, hformat]
    simp only [part?, get?, List.lookup_cons, String.reduceBEq, Option.bind_eq_bind,
      Option.bind_some, text?, texts?_strings, Option.pure_def, Option.getD_some]

/-! ### Replies -/

theorem parse_callUnder {name : String} {args : Json} (h : Carries s (callUnder name args)) :
    parse s = callOf (canonicalToolName name) (filledArgs (canonicalToolName name) args) := by
  obtain ⟨-, ⟨-, hargs, -⟩, -⟩ := h.ordered
  have hparse : parse s = ofCall (callFields name args) := parse_of_carries h rfl rfl
  rw [hparse, ofCall_eq hargs]

theorem parse_stopUnder {r : String} (h : Carries s (stopUnder r)) : parse s = .ok (.stop r) :=
  parse_of_carries h rfl rfl

theorem parse_askUserUnder {q : String} {fields : Option (List String)}
    (h : Carries s (askUserUnder q fields)) :
    parse s = .ok (if (fields.getD []).isEmpty then .stop q else .askUser q (fields.getD [])) := by
  have hparse : parse s = ofAskUser (askUserMembers q fields) := parse_of_carries h rfl rfl
  rw [hparse, ofAskUser_eq]

/-- **A reply in another shape is read like the canonical one.** A reply carries an object when it
is read as that object, as every text of it is that opens at most 127 brackets at once. A reply that
carries a call under its key is read just like one that carries the canonical call of the tool in
its registered spelling; a stop is that stop; a question is that question if it asks for something,
and otherwise a stop. -/
theorem alternate_shapes_agree :
    (∀ (v : Json) (s : String), v.isObject = true → Shows v s → Carries s v) ∧
    (∀ (name : String) (args : Json) (s s' : String), Carries s (callUnder name args) →
      Carries s' (canonical (.callTool
        ⟨canonicalToolName name, filledArgs (canonicalToolName name) args⟩)) →
      parse s = parse s') ∧
    (∀ (r s s' : String), Carries s (stopUnder r) → Carries s' (canonical (.stop r)) →
      parse s = .ok (.stop r) ∧ parse s' = .ok (.stop r)) ∧
    (∀ (q : String) (fields : List String) (s s' : String), fields ≠ [] →
      Carries s (askUserUnder q (some fields)) → Carries s' (canonical (.askUser q fields)) →
      parse s = .ok (.askUser q fields) ∧ parse s' = .ok (.askUser q fields)) ∧
    (∀ (q : String) (fields : Option (List String)) (s : String),
      (fields = none ∨ fields = some []) → Carries s (askUserUnder q fields) →
      parse s = .ok (.stop q)) := by
  have hcanonical {d s} (h : Carries s (canonical d)) (hd : d.Sayable) : parse s = .ok d := by
    rw [parse_canonical h, ofAction_canonical hd h.ordered]
  refine ⟨fun v s hv h => h.carries hv, ?_, ?_, ?_, ?_⟩
  · intro name args s s' h h'
    have hbeside : Carries s' (callReply (canonicalToolName name)
        (some (filledArgs (canonicalToolName name) args))) := h'
    exact (parse_callUnder h).trans (parse_callReply hbeside).symm
  · intro r s s' h h'
    exact ⟨parse_stopUnder h, hcanonical h' trivial⟩
  · intro q fields s s' hfields h h'
    have hsome : fields.isEmpty = false := List.isEmpty_eq_false_iff.2 hfields
    refine ⟨?_, hcanonical h' trivial⟩
    rw [parse_askUserUnder h, Option.getD_some, hsome]
    rfl
  · intro q fields s hfields h
    rw [parse_askUserUnder h]
    rcases hfields with rfl | rfl <;> rfl

/-- A call of the tool for dates under its key and with no arguments, a stop, and a question that
asks for a field and one that asks for none. -/
theorem alternate_shapes_agree_dateTime :
    (canonicalToolName " Date Time" = dateTimeTool ∧
      parse ("\n" ++ (callUnder " Date Time" .emptyObject).compact ++ "\n") =
        parse ("\n" ++ (canonical (.callTool
          ⟨dateTimeTool, .object [("operation", .string "now")]⟩)).compact ++ "\n")) ∧
    parse ("\n" ++ (stopUnder "done").compact ++ "\n") = .ok (.stop "done") ∧
    parse ("\n" ++ (askUserUnder "where?" (some ["city"])).compact ++ "\n") =
      .ok (.askUser "where?" ["city"]) ∧
    parse ("\n" ++ (askUserUnder "where?" none).compact ++ "\n") = .ok (.stop "where?") := by
  obtain ⟨hcarries, hcall, hstop, hask, hnone⟩ := alternate_shapes_agree
  have hprinted {v : Json} (hv : v.isObject = true) (hkept : v.Storable) (hdepth : v.depth ≤ 127) :
      Carries ("\n" ++ v.compact ++ "\n") v :=
    hcarries v _ hv (shows_printed (by decide) (by decide) hkept hdepth).1
  have hname : canonicalToolName " Date Time" = dateTimeTool := by decide +kernel
  have hnow : filledArgs dateTimeTool .emptyObject = .object [("operation", .string "now")] := rfl
  refine ⟨⟨hname, ?_⟩, ?_, ?_, ?_⟩
  · refine hcall " Date Time" .emptyObject _ _ (hprinted rfl ?_ (by decide)) ?_
    · have hfields : (callFields " Date Time" .emptyObject).Storable :=
        .object (by decide) (by simp [storable_emptyObject])
      exact .object (by decide) (by simp [hfields])
    · rw [hname, hnow]
      exact hprinted rfl (storable_callReply (.object (by decide) (by simp))) (by decide)
  · refine (hstop "done" _ _ (hprinted rfl ?_ (by decide)) (hprinted rfl ?_ (by decide))).1
    · have hreason : (object [("reason", .string "done")]).Storable :=
        .object (by decide) (by simp)
      exact .object (by decide) (by simp [hreason])
    · exact .object (by decide) (by simp)
  · refine (hask "where?" ["city"] _ _ (by decide) (hprinted rfl ?_ (by decide))
      (hprinted rfl ?_ (by decide))).1
    · have hfields : (askUserMembers "where?" (some ["city"])).Storable :=
        .object (by decide) (by simp [strings])
      exact .object (by decide) (by simp [hfields])
    · exact .object (by decide) (by simp [strings])
  · have hfields : (askUserMembers "where?" none).Storable := .object (by decide) (by simp)
    refine hnone "where?" none _ (.inl rfl) (hprinted rfl ?_ (by decide))
    exact .object (by decide) (by simp [hfields])

end Decision

end Conductor

import Conductor.Proofs.Decision.Shapes
import Conductor.Proofs.Json.Fields

/-!
# What an object says

Four keys say how an object is read, and the first of them that it has is followed: the key `action`
with the fields of the variant that it names, or what stands under one of the other keys. What an
object says is written down here by looking up its fields; reading it follows just that.

* `Decision.shape?` : the first of the four keys;
* `Decision.said` : what an object says, or nothing if what stands under the first key has not the
  form of its variant;
* `Decision.ofObject?_follows` : **an object is read as what it says, and otherwise refused under
  its first key;**
* `Decision.callOf_of_said` : a call that is said is one of a name and arguments.
-/

namespace Conductor

open Json

namespace Decision

/-! ### The first key -/

/-- The keys that say how an object is read, in the order in which they are looked for. -/
def shapeKeys : List String := ["action", "call_tool", "stop", "ask_user"]

/-- The first of these keys that an object has. -/
def shape? (o : Json) : Option String := shapeKeys.find? fun k => (o.get? k).isSome

/-! ### What an object says -/

/-- A call by its fields; arguments may be left out. -/
def saidCall (field : String → Option Json) : Option (String × Json) := do
  let name ← (field "name").bind text?
  return (name, (field "args").getD .null)

/-- A question by its fields; what it asks for may be left out. -/
def saidQuestion (field : String → Option Json) : Option (String × List String) := do
  let question ← (field "question").bind text?
  let fields ← ((field "missing_fields").map texts?).getD (some [])
  return (question, fields)

/-- What an object says by its key `action` and the fields beside it. -/
def saidBeside (o : Json) : Option (Except Fault Decision) := do
  match ← o.part? "action" text? with
  | "call_tool" =>
    let (name, args) ← saidCall o.get?
    return callOf name args
  | "ask_user" =>
    let (question, fields) ← saidQuestion o.get?
    return .ok (.askUser question fields)
  | "replan" => return .ok (.replan (← o.part? "subgoals" texts?))
  | "stop" => return .ok (.stop (← o.part? "reason" text?))
  | _ => none

/-- What an object says by the value under one of the other keys: an object of the fields, or the
array of them. -/
def saidUnder (key : String) (v : Json) : Option (Except Fault Decision) :=
  match key with
  | "call_tool" => do
    let (name, args) ← saidCall (← fieldsOf? ["name", "args"] v)
    return callOf (canonicalToolName name) (filledArgs (canonicalToolName name) args)
  | "stop" => do
    let field ← fieldsOf? ["reason"] v
    return .ok (.stop (← (field "reason").bind text?))
  | "ask_user" => do
    let (question, fields) ← saidQuestion (← fieldsOf? ["question", "missing_fields"] v)
    return .ok (if fields.isEmpty then .stop question else .askUser question fields)
  | _ => none

/-- What an object says, if what stands under its first key has the form of its variant. -/
def said (o : Json) : Option (Except Fault Decision) := do
  let key ← shape? o
  if key = "action" then saidBeside o else saidUnder key (← o.get? key)

/-- What is read is what was said, and if that was nothing the value of the key is malformed. -/
def Follows (key : String) (said : Option (Except Fault Decision)) (r : Except Fault Decision) :
    Prop :=
  match said with
  | some x => r = x
  | none => ∃ cause, r = .error (.malformed key cause)

theorem readUnder_follows {key : String} {f : Format} {j : Json}
    {further : Json → Option (Except Fault Decision)} :
    Follows key ((f.ofValue j).toOption.bind further) (readUnder key f j further) := by
  unfold readUnder
  cases f.ofValue j with
  | error e => exact ⟨e, rfl⟩
  | ok normal =>
    change Follows key (further normal) _
    cases h : further normal with
    | none => exact ⟨_, by simp only [h]; rfl⟩
    | some x => simp only [h, Follows, Option.getD_some]

section Fill

variable {src : Source} {w : String → Option Json}

theorem fill_call (h : ∀ j, w "args" = some j → j.Ordered) :
    fill (fun field => fieldValue src field.2 (w field.1)) replyCallFields =
      (saidCall w).map fun c => [("name", .string c.1), ("args", c.2)] := by
  simp only [replyCallFields, fill, fieldValue_text, fieldValue_any h, saidCall]
  cases (w "name").bind text? <;> rfl

theorem fill_question :
    fill (fun field => fieldValue src field.2 (w field.1)) replyAskUserFields =
      (saidQuestion w).map fun c =>
        [("question", .string c.1), ("missing_fields", .strings c.2)] := by
  simp only [replyAskUserFields, fill, fieldValue_text, fieldValue_texts_default, saidQuestion]
  cases (w "question").bind text? with
  | none => rfl
  | some q => cases ((w "missing_fields").map texts?).getD (some []) <;> rfl

theorem fill_reason :
    fill (fun field => fieldValue src field.2 (w field.1)) stopFields =
      ((w "reason").bind text?).map fun r => [("reason", .string r)] := by
  simp only [stopFields, fill, fieldValue_text]
  cases (w "reason").bind text? <;> rfl

theorem fill_subgoals :
    fill (fun field => fieldValue src field.2 (w field.1)) replanFields =
      ((w "subgoals").bind texts?).map fun gs => [("subgoals", .strings gs)] := by
  simp only [replanFields, fill, fieldValue_texts]
  cases (w "subgoals").bind texts? <;> rfl

end Fill

/-- **An object with the key `action` is read as what it says beside it.** -/
theorem ofAction_follows {ms : List (String × Json)} (h : (Json.object ms).Ordered) :
    Follows "action" (saidBeside (.object ms)) (ofAction (.object ms)) := by
  obtain ⟨hkeys, hvalues⟩ := h
  let w (k : String) : Option Json := ms.lookup k
  have hargs (j : Json) (hj : w "args" = some j) : j.Ordered :=
    orderedMembers_iff.1 hvalues _ (mem_of_lookup hj)
  unfold ofAction
  refine Eq.subst (motive := fun x => Follows "action" x _) ?_ readUnder_follows
  rw [actionFormat, Format.ofValue_tagged hkeys (by decide)]
  change _ = ((w "action").bind text?).bind _
  change (((w "action").bind text?).bind _).bind _ = _
  cases (w "action").bind text? with
  | none => rfl
  | some kind =>
    rw [Option.bind_some, Option.bind_some]
    split
    · simp only [List.lookup_cons, String.reduceBEq, Option.bind_eq_bind, Option.bind_some]
      rw [fill_call (w := w) hargs]
      change _ = (saidCall w).bind _
      cases saidCall w <;> rfl
    · simp only [List.lookup_cons, String.reduceBEq, Option.bind_eq_bind, Option.bind_some]
      rw [fill_question (w := w)]
      change _ = (saidQuestion w).bind _
      cases saidQuestion w with
      | none => rfl
      | some c => simp [part?, get?, List.lookup_cons, texts?_strings, text?]
    · simp only [List.lookup_cons, String.reduceBEq, Option.bind_eq_bind, Option.bind_some]
      rw [fill_subgoals (w := w)]
      change _ = ((w "subgoals").bind texts?).bind _
      cases (w "subgoals").bind texts? with
      | none => rfl
      | some gs => simp [part?, get?, List.lookup_cons, texts?_strings, text?]
    · simp only [List.lookup_cons, String.reduceBEq, Option.bind_eq_bind, Option.bind_some]
      rw [fill_reason (w := w)]
      change _ = ((w "reason").bind text?).bind _
      cases (w "reason").bind text? <;> rfl
    · next hcall hask hreplan hstop =>
      simp only [List.lookup_cons, List.lookup_nil, beq_false_of_ne hcall, beq_false_of_ne hask,
        beq_false_of_ne hreplan, beq_false_of_ne hstop]
      rfl

theorem ordered_of_fieldsOf? {names : List String} {v : Json} (hv : v.Ordered)
    {w : String → Option Json} (h : fieldsOf? names v = some w) {k : String} {j : Json}
    (hj : w k = some j) : j.Ordered := by
  cases v with
  | object ms =>
    obtain rfl := Option.some.inj h
    exact orderedMembers_iff.1 hv.2 _ (mem_of_lookup hj)
  | array xs =>
    rw [fieldsOf?] at h
    split at h
    · obtain rfl := Option.some.inj h
      exact orderedItems_iff.1 hv _ (List.of_mem_zip (mem_of_lookup hj)).2
    · cases h
  | _ => cases h

/-- **What stands under another key is read as what it says.** -/
theorem ofCall_follows {v : Json} (h : v.Ordered) :
    Follows "call_tool" (saidUnder "call_tool" v) (ofCall v) := by
  unfold ofCall
  refine Eq.subst (motive := fun x => Follows "call_tool" x _) ?_ readUnder_follows
  rw [callFormat, Format.ofValue_open h (by decide)]
  change ((fieldsOf? ["name", "args"] v).bind _).bind _ = (fieldsOf? ["name", "args"] v).bind _
  cases hw : fieldsOf? ["name", "args"] v with
  | none => rfl
  | some w =>
    rw [Option.bind_some, Option.bind_some, fill_call (w := w) fun j => ordered_of_fieldsOf? h hw]
    cases saidCall w <;> rfl

theorem ofStop_follows {v : Json} (h : v.Ordered) :
    Follows "stop" (saidUnder "stop" v) (ofStop v) := by
  unfold ofStop
  refine Eq.subst (motive := fun x => Follows "stop" x _) ?_ readUnder_follows
  rw [stopFormat, Format.ofValue_open h (by decide)]
  change ((fieldsOf? ["reason"] v).bind _).bind _ = (fieldsOf? ["reason"] v).bind _
  cases fieldsOf? ["reason"] v with
  | none => rfl
  | some w =>
    rw [Option.bind_some, Option.bind_some, fill_reason (w := w)]
    cases (w "reason").bind text? <;> rfl

theorem ofAskUser_follows {v : Json} (h : v.Ordered) :
    Follows "ask_user" (saidUnder "ask_user" v) (ofAskUser v) := by
  unfold ofAskUser
  refine Eq.subst (motive := fun x => Follows "ask_user" x _) ?_ readUnder_follows
  rw [askUserFormat, Format.ofValue_open h (by decide)]
  change ((fieldsOf? ["question", "missing_fields"] v).bind _).bind _ =
    (fieldsOf? ["question", "missing_fields"] v).bind _
  cases fieldsOf? ["question", "missing_fields"] v with
  | none => rfl
  | some w =>
    rw [Option.bind_some, Option.bind_some, fill_question (w := w)]
    cases saidQuestion w with
    | none => rfl
    | some c => simp [part?, get?, List.lookup_cons, texts?_strings, text?]

/-! ### Objects -/

/-- What stands under one of the other keys, as it is read. -/
def ofUnder (key : String) (v : Json) : Option (Except Fault Decision) :=
  match key with
  | "call_tool" => some (ofCall v)
  | "stop" => some (ofStop v)
  | "ask_user" => some (ofAskUser v)
  | _ => none

/-- **The first key of an object says how it is read.** -/
theorem ofObject?_eq (o : Json) : ofObject? o = (shape? o).bind fun key =>
    if key = "action" then some (ofAction o) else (o.get? key).bind (ofUnder key) := by
  simp only [shape?, shapeKeys, List.find?_cons, List.find?_nil, ofObject?]
  cases haction : o.get? "action" with
  | some v => rfl
  | none =>
    cases hcall : o.get? "call_tool" with
    | some v => simp [hcall, ofUnder]
    | none =>
      cases hstop : o.get? "stop" with
      | some v => simp [hstop, ofUnder]
      | none =>
        cases hask : o.get? "ask_user" with
        | some v => simp [hask, ofUnder]
        | none => rfl

theorem shape?_some {o : Json} {key : String} (h : shape? o = some key) :
    key ∈ shapeKeys ∧ ∃ v, o.get? key = some v :=
  ⟨List.mem_of_find?_eq_some h,
    Option.isSome_iff_exists.1 (List.find?_some (p := fun k => (o.get? k).isSome) h)⟩

theorem ordered_of_get? {o : Json} (h : o.Ordered) {k : String} {v : Json}
    (hv : o.get? k = some v) : v.Ordered := by
  cases o with
  | object ms => exact orderedMembers_iff.1 h.2 _ (mem_of_lookup hv)
  | _ => cases hv

/-- **An object is read as what it says, and refused if it says nothing.** -/
theorem ofObject?_follows {o : Json} (ho : o.isObject = true) (h : o.Ordered) {key : String}
    (hkey : shape? o = some key) : ∃ r, ofObject? o = some r ∧ Follows key (said o) r := by
  obtain ⟨hmem, v, hv⟩ := shape?_some hkey
  have hordered : v.Ordered := ordered_of_get? h hv
  rw [ofObject?_eq, said, hkey, Option.bind_some, Option.bind_eq_bind, Option.bind_some]
  by_cases haction : key = "action"
  · subst haction
    cases o with
    | object ms => exact ⟨_, rfl, ofAction_follows h⟩
    | _ => cases ho
  · rw [if_neg haction, if_neg haction, hv, Option.bind_some, Option.bind_eq_bind,
      Option.bind_some]
    simp only [shapeKeys, List.mem_cons, List.not_mem_nil, or_false] at hmem
    obtain rfl | rfl | rfl := hmem.resolve_left haction
    · exact ⟨_, rfl, ofCall_follows hordered⟩
    · exact ⟨_, rfl, ofStop_follows hordered⟩
    · exact ⟨_, rfl, ofAskUser_follows hordered⟩

/-! ### Calls -/

/-- A call that is decided names its tool and has arguments. -/
theorem callOf_ok {name : String} {args : Json} {c : Call}
    (h : callOf name args = .ok (.callTool c)) :
    Text.isBlankText c.name = false ∧ c.args.isNull = false := by
  unfold callOf at h
  split at h
  · cases h
  · next hname =>
    cases h
    refine ⟨Bool.eq_false_iff.2 hname, ?_⟩
    cases args <;> rfl

theorem callOf_of_saidBeside {o : Json} {c : Call}
    (h : saidBeside o = some (.ok (.callTool c))) :
    ∃ name args, callOf name args = .ok (.callTool c) := by
  obtain ⟨kind, -, h⟩ := Option.bind_eq_some_iff.1 h
  split at h
  · obtain ⟨call, -, h⟩ := Option.bind_eq_some_iff.1 h
    exact ⟨_, _, Option.some.inj h⟩
  · obtain ⟨question, -, h⟩ := Option.bind_eq_some_iff.1 h
    cases h
  · obtain ⟨gs, -, h⟩ := Option.bind_eq_some_iff.1 h
    cases h
  · obtain ⟨r, -, h⟩ := Option.bind_eq_some_iff.1 h
    cases h
  · cases h

theorem callOf_of_saidUnder {key : String} {v : Json} {c : Call}
    (h : saidUnder key v = some (.ok (.callTool c))) :
    ∃ name args, callOf name args = .ok (.callTool c) := by
  unfold saidUnder at h
  split at h
  · obtain ⟨w, -, h⟩ := Option.bind_eq_some_iff.1 h
    obtain ⟨call, -, h⟩ := Option.bind_eq_some_iff.1 h
    exact ⟨_, _, Option.some.inj h⟩
  · obtain ⟨w, -, h⟩ := Option.bind_eq_some_iff.1 h
    obtain ⟨r, -, h⟩ := Option.bind_eq_some_iff.1 h
    cases h
  · obtain ⟨w, -, h⟩ := Option.bind_eq_some_iff.1 h
    obtain ⟨question, -, h⟩ := Option.bind_eq_some_iff.1 h
    have hd := Except.ok.inj (Option.some.inj h)
    split at hd <;> cases hd
  · cases h

theorem callOf_of_said {o : Json} {c : Call} (h : said o = some (.ok (.callTool c))) :
    ∃ name args, callOf name args = .ok (.callTool c) := by
  obtain ⟨key, -, h⟩ := Option.bind_eq_some_iff.1 h
  split at h
  · exact callOf_of_saidBeside h
  · obtain ⟨v, -, h⟩ := Option.bind_eq_some_iff.1 h
    exact callOf_of_saidUnder h

/-- `null` says nothing. -/
theorem said_null {o : Json} {key : String} (hkey : shape? o = some key)
    (hnull : o.get? key = some .null) : said o = none := by
  rw [said, hkey, Option.bind_eq_bind, Option.bind_some]
  split
  · next haction =>
    subst haction
    rw [saidBeside, part?, hnull]
    rfl
  · rw [hnull, Option.bind_eq_bind, Option.bind_some]
    unfold saidUnder
    split <;> rfl

end Decision

end Conductor

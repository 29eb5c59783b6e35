import Conductor.Schema.Document

/-!
# Values without violations

When a value breaks none of some rules, and when it does not break a single one. Where in a larger
value it stands makes no difference.

* `Schema.checkAll_eq_nil` : rules that are all kept;
* `Rule.check_type_eq_nil`, `Rule.check_enum_eq_nil`, `Rule.check_items_eq_nil`,
  `Rule.check_required_eq_nil`, `Rule.check_properties_eq_nil` : **when a rule is kept;**
* `Json.violationsOf_eq_nil` : a document that is a schema has no violations by a value exactly if
  its schema has none.
-/

namespace Conductor

variable {path : Path} {v : Json}

theorem Schema.checkAll_eq_nil {rs : List Rule} :
    Schema.checkAll path rs v = [] ↔ ∀ r ∈ rs, r.check path v = [] := by
  induction rs with
  | nil => simp [Schema.checkAll]
  | cons r rs ih => simp [Schema.checkAll, ih]

namespace Rule

theorem check_type_eq_nil {t : JsonType} :
    (Rule.type [t]).check path v = [] ↔ t.holds v = true := by
  simp [check]

theorem check_enum_eq_nil {vs : List Json} :
    (Rule.enum vs).check path v = [] ↔ ∃ w ∈ vs, w.alike v = true := by
  simp [check]

/-- What is asked of the items is not asked of other values. -/
theorem check_items_eq_nil {s : Schema} {P : Json → Prop}
    (hs : ∀ path x, s.check path x = [] ↔ P x) :
    (Rule.items s).check path v = [] ↔ ∀ xs, v = .array xs → ∀ x ∈ xs, P x := by
  cases v with
  | array xs =>
    simp only [check, List.flatMap_eq_nil_iff, hs, Json.array.injEq, forall_eq']
    constructor
    · intro h x hx
      obtain ⟨i, hi, rfl⟩ := List.getElem_of_mem hx
      exact h (xs[i], i) (List.mk_mem_zipIdx_iff_getElem?.2 (List.getElem?_eq_getElem hi))
    · rintro h ⟨x, i⟩ hx
      exact h x (List.fst_mem_of_mem_zipIdx hx)
  | _ => simp [check]

theorem check_required_eq_nil {keys : List String} :
    (Rule.required keys).check path v = [] ↔
      ∀ ms, v = .object ms → ∀ k ∈ keys, (ms.lookup k).isSome = true := by
  cases v with
  | object ms => simp [check]
  | _ => simp [check]

end Rule

theorem Schema.checkDeclared_eq_nil {declared : List (String × Schema)}
    {ms : List (String × Json)} :
    Schema.checkDeclared path declared ms = [] ↔
      ∀ d ∈ declared, ∀ x, ms.lookup d.1 = some x → d.2.check (path ++ [.member d.1]) x = [] := by
  induction declared with
  | nil => simp [Schema.checkDeclared]
  | cons d rest ih =>
    obtain ⟨k, s⟩ := d
    simp only [Schema.checkDeclared, List.append_eq_nil_iff, ih, List.forall_mem_cons]
    refine and_congr_left fun _ => ?_
    cases ms.lookup k <;> simp

theorem Rule.check_properties_eq_nil {declared : List (String × Schema)} :
    (Rule.properties declared).check path v = [] ↔
      ∀ ms, v = .object ms → ∀ d ∈ declared, ∀ x, ms.lookup d.1 = some x →
        d.2.check (path ++ [.member d.1]) x = [] := by
  cases v with
  | object ms => simp [check, Schema.checkDeclared_eq_nil]
  | _ => simp [check]

/-! ### Documents -/

namespace Schema

theorem schemasOf_eq (ms : List (String × Json)) :
    schemasOf ms = ms.map fun m => (m.1, ofJson m.2) := by
  induction ms with
  | nil => rfl
  | cons m ms ih => rw [schemasOf, ih, List.map_cons]

/-- The names that a document requires. -/
theorem ruleOf?_required (parts : Parts) (l : List String) :
    ruleOf? parts "required" (.strings l) = some (.required l) := by
  have htexts : (l.map Json.string).filterMap Json.text? = l := by
    rw [List.filterMap_map]
    exact List.filterMap_some
  exact congrArg (fun keys => some (Rule.required keys)) htexts

theorem memberFlaw?_eq_none {ms : List (String × Json)} (h : ∀ m ∈ ms, flaw? m.2 = none) :
    memberFlaw? ms = none := by
  induction ms with
  | nil => rfl
  | cons m ms ih =>
    obtain ⟨hm, hms⟩ := List.forall_mem_cons.1 h
    rw [memberFlaw?, hm, ih hms, Option.or_none]

theorem allDistinct_strings {l : List String} (h : l.Nodup) :
    allDistinct (l.map .string) = true := by
  induction l with
  | nil => rfl
  | cons s l ih =>
    obtain ⟨hs, hl⟩ := List.nodup_cons.1 h
    have hany : (l.map Json.string).any (Json.string s).alike = false := by
      rw [List.any_map, List.any_eq_false]
      intro t ht hst
      obtain rfl : s = t := eq_of_beq hst
      exact hs ht
    rw [List.map_cons, allDistinct, hany, ih hl]
    rfl

/-- Different texts are a list of names. -/
theorem namesFlaw?_strings {l : List String} (h : l.Nodup) :
    namesFlaw? (Json.strings l) = none := by
  have htype : (l.map Json.string).findSome? (typeFlaw? [.string]) = none := by
    simp [List.findSome?_eq_none_iff, typeFlaw?, JsonType.holds]
  simp [namesFlaw?, Json.strings, htype, allDistinct_strings h]

end Schema

theorem Json.violationsOf_eq_nil {schema : Json} (h : Schema.flaw? schema = none) :
    schema.violationsOf v = [] ↔ (Schema.ofJson schema).check [] v = [] := by
  rw [violationsOf, h, Schema.violations]
  exact List.map_eq_nil_iff

end Conductor

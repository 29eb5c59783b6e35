import Conductor.Proofs.Json.Fields
import Conductor.Schema.Repair

/-!
# What a repair does

An output is repaired just if it lacks one entry of what its schema requires, has one member that
the schema does not declare, and conforms when the value of the one stands under the name of the
other. Nothing else of it changes, no member is written over, and no value is lost. This does not
depend on the validator, as long as that refuses a document whose list of required names holds
something else.

* `Json.Moved` : an object with the value of one key under another;
* `Json.Repairs` : what a repaired output is to the raw one;
* `Json.RefusesForeignNames`, `Json.refusesForeignNames_violationsOf` : what is asked of a
  validator, and that the one in use does so;
* `Json.repair_iff` : **an output is repaired if it can be, and to nothing else.**
-/

namespace Conductor

namespace Json

/-! ### What a repair is -/

/-- What a schema document lists as required. -/
def requiredEntries (schema : Json) : List Json := (schema.part? "required" items?).getD []

/-- The entry is the name of a member. -/
def hasEntry (raw : Json) : Json → Bool
  | .string k => (raw.get? k).isSome
  | _ => false

/-- The required entries that an object lacks. -/
def absentEntries (raw schema : Json) : List Json :=
  schema.requiredEntries.filter fun e => !raw.hasEntry e

/-- The keys of an object that are not declared. -/
def undeclaredKeys (t : Keyed Json) (declared : List (String × Json)) : List String :=
  t.keys.filter fun k => !(declared.lookup k).isSome

/-- The second object is the first one with the value of a key under another key, where there was
none. -/
structure Moved (t f : Keyed Json) (old new : String) : Prop where
  present : (t.get? old).isSome = true
  vacant : t.get? new = none
  moved : f.get? new = t.get? old
  gone : f.get? old = none
  kept : ∀ k, k ≠ old → k ≠ new → f.get? k = t.get? k

/-- The object is repaired to another one under a schema document: the one required entry that it
lacks gets the value of the one key that is not declared, and the validator has no objections. -/
inductive Repairs (violations : Json → Json → List String) (schema : Json) : Json → Json → Prop
  | intro {t f : Keyed Json} {declared : List (String × Json)} {old new : String}
      (hproperties : schema.part? "properties" members? = some declared)
      (habsent : absentEntries (.ofKeyed t) schema = [.string new])
      (hundeclared : undeclaredKeys t declared = [old])
      (hmoved : Moved t f old new)
      (hvalid : violations schema (.ofKeyed f) = []) :
      Repairs violations schema (.ofKeyed t) (.ofKeyed f)

/-- The validator refuses a document whose list of required names holds something else. -/
def RefusesForeignNames (violations : Json → Json → List String) : Prop :=
  ∀ schema value, (∃ e ∈ schema.requiredEntries, e.text? = none) → violations schema value ≠ []

/-! ### Moving a value -/

section Move

variable {t f : Keyed Json} {old new : String} {v : Json}

/-- The table with the value of one key under another. -/
theorem moved_insert_erase (hold : t.get? old = some v) (hnew : t.get? new = none) :
    Moved t ((t.erase old).insert new v) old new := by
  have hne : old ≠ new := by
    rintro rfl
    rw [hold] at hnew
    cases hnew
  refine ⟨by rw [hold]; rfl, hnew, ?_, ?_, fun k hk hk' => ?_⟩
  · rw [Keyed.get?_insert_self, hold]
  · rw [Keyed.get?_insert_of_ne _ hne, Keyed.get?_erase_self]
  · rw [Keyed.get?_insert_of_ne _ hk', Keyed.get?_erase_of_ne _ hk]

/-- There is only one such table. -/
theorem Moved.eq_insert_erase (h : Moved t f old new) (hold : t.get? old = some v) :
    f = (t.erase old).insert new v := by
  have hmoved := moved_insert_erase hold h.vacant
  refine Keyed.ext_get? fun k => ?_
  by_cases hnew : k = new
  · rw [hnew, h.moved, hmoved.moved]
  · by_cases hold' : k = old
    · rw [hold', h.gone, hmoved.gone]
    · rw [h.kept k hold' hnew, hmoved.kept k hold' hnew]

/-- No value is lost, and none is there twice. -/
theorem Moved.values_perm (h : Moved t f old new) : f.values.Perm t.values := by
  obtain ⟨v, hold⟩ := Option.isSome_iff_exists.1 h.present
  have hback : t = (t.erase old).insert old v := by
    refine Keyed.ext_get? fun k => ?_
    rw [Keyed.get?_insert, Keyed.get?_erase]
    split
    · next hk => rw [hk, hold]
    · rfl
  have hinsert (k : String) (hk : (t.erase old).get? k = none) :
      ((t.erase old).insert k v).values.Perm (v :: (t.erase old).values) := by
    have hnot : k ∉ (t.erase old).entries.map (·.1) := by
      intro hmem
      obtain ⟨p, hp, rfl⟩ := List.mem_map.1 hmem
      rw [Keyed.get?_of_mem hp] at hk
      cases hk
    exact (insertByKey_perm hnot).map (·.2)
  have hnew : (t.erase old).get? new = none := by
    rw [Keyed.get?_erase, h.vacant, ite_self]
  have hraw : t.values.Perm (v :: (t.erase old).values) := by
    have hold' := hinsert old (Keyed.get?_erase_self t)
    rwa [← hback] at hold'
  rw [h.eq_insert_erase hold]
  exact (hinsert new hnew).trans hraw.symm

end Move

/-! ### When an output is repaired -/

section Repair

variable {violations : Json → Json → List String} {raw schema fixed : Json} {t f : Keyed Json}
  {declared : List (String × Json)} {old new : String}

/-- The names among the required entries are all that the repair looks at. -/
theorem missing_eq (raw schema : Json) :
    (schema.requiredKeys.filter fun k => !(raw.get? k).isSome) =
      (absentEntries raw schema).filterMap text? := by
  change (schema.requiredEntries.filterMap text?).filter _ = _
  unfold absentEntries
  induction schema.requiredEntries with
  | nil => rfl
  | cons e es ih =>
    cases e with
    | string k =>
      have htext : (Json.string k).text? = some k := rfl
      rw [List.filterMap_cons_some htext, List.filter_cons, List.filter_cons, ih]
      cases hk : (raw.get? k).isSome <;> simp [hasEntry, hk, htext]
    | _ => exact ih

/-- The repaired object is the raw one with a value moved. -/
theorem renamed_entries {v : Json} (hold : t.get? old = some v) :
    Json.object (renamed t.entries old new) = .ofKeyed ((t.erase old).insert new v) := by
  have hlookup : t.entries.lookup old = some v := hold
  rw [renamed, hlookup]
  rfl

theorem get?_of_mem_undeclaredKeys (h : old ∈ undeclaredKeys t declared) :
    ∃ v, t.get? old = some v := by
  obtain ⟨p, hp, rfl⟩ := List.mem_map.1 (List.mem_filter.1 h).1
  exact ⟨p.2, Keyed.get?_of_mem hp⟩

theorem get?_of_mem_absentEntries (h : .string new ∈ absentEntries raw schema) :
    raw.get? new = none := by
  have hentry : (!(raw.get? new).isSome) = true := (List.mem_filter.1 h).2
  cases hget : raw.get? new with
  | none => rfl
  | some v =>
    rw [hget] at hentry
    cases hentry

/-- A document that a validator accepts requires nothing but names. -/
theorem absentEntries_eq (hviolations : RefusesForeignNames violations)
    (hvalid : violations schema fixed = [])
    (h : (absentEntries raw schema).filterMap text? = [new]) :
    absentEntries raw schema = [.string new] := by
  have htexts (e : Json) (he : e ∈ absentEntries raw schema) : ∃ k, e = .string k := by
    cases htext : e.text? with
    | none => exact absurd hvalid (hviolations _ _ ⟨e, (List.mem_filter.1 he).1, htext⟩)
    | some k =>
      cases e with
      | string k => exact ⟨k, rfl⟩
      | _ => cases htext
  generalize absentEntries raw schema = es at h htexts
  cases es with
  | nil => cases h
  | cons e es =>
    obtain ⟨⟨k, rfl⟩, hes⟩ := List.forall_mem_cons.1 htexts
    obtain ⟨rfl, hrest⟩ := List.cons.inj h
    cases es with
    | nil => rfl
    | cons e' es =>
      obtain ⟨⟨k', rfl⟩, -⟩ := List.forall_mem_cons.1 hes
      cases hrest

theorem repairs_of_repairedUnder? (hviolations : RefusesForeignNames violations)
    (h : repairedUnder? violations (.ofKeyed t) schema = some fixed) :
    Repairs violations schema (.ofKeyed t) fixed := by
  obtain ⟨declared, hproperties, h⟩ := Option.bind_eq_some_iff.1 h
  dsimp only at h
  split at h
  · next new old hmissing hundeclared =>
    split at h
    · next hvalid =>
      obtain rfl := Option.some.inj h
      have hundeclared' : undeclaredKeys t declared = [old] := hundeclared
      have habsent : (absentEntries (.ofKeyed t) schema).filterMap text? = [new] :=
        (missing_eq (.ofKeyed t) schema).symm.trans hmissing
      obtain ⟨v, hold⟩ := get?_of_mem_undeclaredKeys
        (hundeclared' ▸ List.mem_singleton_self old : old ∈ undeclaredKeys t declared)
      rw [renamed_entries hold] at hvalid ⊢
      have hconforms := List.isEmpty_iff.1 hvalid
      have hentries := absentEntries_eq hviolations hconforms habsent
      have hnew : (Json.ofKeyed t).get? new = none :=
        get?_of_mem_absentEntries (hentries ▸ List.mem_singleton_self _)
      exact .intro hproperties hentries hundeclared' (moved_insert_erase hold hnew) hconforms
    · cases h
  · cases h

theorem repairedUnder?_of_repairs (h : Repairs violations schema raw fixed) :
    repairedUnder? violations raw schema = some fixed := by
  obtain ⟨hproperties, habsent, hundeclared, hmoved, hvalid⟩ := h
  rename_i t f declared old new
  obtain ⟨v, hold⟩ := Option.isSome_iff_exists.1 hmoved.present
  have hmissing : (schema.requiredKeys.filter fun k => !(t.entries.lookup k).isSome) = [new] := by
    have h := missing_eq (.ofKeyed t) schema
    rw [habsent] at h
    exact h
  have hundeclared' : ((t.entries.map (·.1)).filter fun k => !(declared.lookup k).isSome) = [old] :=
    hundeclared
  have hfixed : Json.object (renamed t.entries old new) = .ofKeyed f := by
    rw [renamed_entries hold, hmoved.eq_insert_erase hold]
  unfold repairedUnder?
  rw [hproperties]
  simp only [ofKeyed, members?, Option.bind_eq_bind, Option.bind_some, hmissing, hundeclared']
  rw [hfixed, hvalid]
  rfl

end Repair

/-! ### The validator in use -/

theorem isSome_findSome? {α β : Type} {f : α → Option β} {l : List α} {a : α} (ha : a ∈ l)
    (h : (f a).isSome = true) : (l.findSome? f).isSome = true :=
  List.findSome?_isSome_iff.2 ⟨a, ha, h⟩

/-- A list with something else than texts is no list of names. -/
theorem isSome_namesFlaw? {xs : List Json} {e : Json} (he : e ∈ xs) (htext : e.text? = none) :
    (Schema.namesFlaw? (.array xs)).isSome = true := by
  have htype : (Schema.typeFlaw? [.string] e).isSome = true := by
    cases e with
    | string s => cases htext
    | _ => rfl
  rw [Schema.namesFlaw?, Option.isSome_or, isSome_findSome? he htype, Bool.true_or]

/-- **The validator in use refuses a document that requires something else than names.** -/
theorem refusesForeignNames_violationsOf : RefusesForeignNames violationsOf := by
  rintro schema value ⟨e, he, htext⟩
  cases schema with
  | object ms =>
    have hflaw : (Schema.flaw? (.object ms)).isSome = true := by
      cases hrequired : ms.lookup "required" with
      | none =>
        rw [requiredEntries, part?, get?, hrequired] at he
        cases he
      | some v =>
        rw [requiredEntries, part?, get?, hrequired] at he
        cases v with
        | array xs =>
          have hkeyword : (ms.findSome? fun m => Schema.keywordFlaw? m.1 m.2).isSome = true :=
            isSome_findSome? (mem_of_lookup hrequired) (isSome_namesFlaw? he htext)
          rw [Schema.flaw?, Option.isSome_or, Option.isSome_or, Option.isSome_or, hkeyword]
          simp
        | _ => cases he
    obtain ⟨b, hb⟩ := Option.isSome_iff_exists.1 hflaw
    rw [violationsOf, hb]
    nofun
  | _ => cases he

/-! ### Repairs -/

/-- **An output is repaired if it can be, and to nothing else.** With any validator that refuses a
document whose list of required names holds something else, and so with the one in use, the repair
of an output gives an object just if that is the output with one value moved: from the one key that
is not declared to the one required name that is absent, and to the satisfaction of the validator.
All values are still there then. -/
theorem repair_iff :
    (∀ violations, RefusesForeignNames violations → ∀ raw schema fixed : Json, raw.Ordered →
      (repairedUnder? violations raw schema = some fixed ↔
        Repairs violations schema raw fixed)) ∧
    (∀ raw schema fixed : Json, raw.Ordered →
      (raw.repaired? schema = some fixed ↔ Repairs violationsOf schema raw fixed)) ∧
    (∀ (violations : Json → Json → List String) (raw schema fixed : Json),
      Repairs violations schema raw fixed → ∃ t f old new, raw = .ofKeyed t ∧
        fixed = .ofKeyed f ∧ Moved t f old new ∧ f.values.Perm t.values) := by
  have hiff {violations} (hviolations : RefusesForeignNames violations) (raw schema fixed : Json)
      (hraw : raw.Ordered) : repairedUnder? violations raw schema = some fixed ↔
        Repairs violations schema raw fixed := by
    refine ⟨fun h => ?_, repairedUnder?_of_repairs⟩
    cases raw with
    | object ms =>
      have hms : Json.object ms = .ofKeyed ⟨ms, hraw.1⟩ := rfl
      rw [hms] at h ⊢
      exact repairs_of_repairedUnder? hviolations h
    | _ => cases h
  refine ⟨fun violations => hiff, fun raw schema fixed hraw => ?_, ?_⟩
  · exact hiff refusesForeignNames_violationsOf raw schema fixed hraw
  · intro violations raw schema fixed h
    obtain ⟨-, -, -, hmoved, -⟩ := h
    exact ⟨_, _, _, _, rfl, rfl, hmoved, hmoved.values_perm⟩

/-- The schema of a report that has a city and a unit. -/
def reportSchema : Json :=
  .object [("properties", .object [("city", .emptyObject), ("unit", .emptyObject)]),
    ("required", .strings ["city", "unit"])]

/-- A report with its unit under some key. -/
def report (key : String) : Keyed Json := .ofList [("city", .string "Oslo"), (key, .string "C")]

/-- A report that has its unit under another name. -/
theorem repair_iff_report :
    RefusesForeignNames violationsOf ∧ (Json.ofKeyed (report "u")).Ordered ∧
      repairedUnder? violationsOf (.ofKeyed (report "u")) reportSchema =
        some (.ofKeyed (report "unit")) ∧
      (Json.ofKeyed (report "u")).repaired? reportSchema = some (.ofKeyed (report "unit")) ∧
      ∃ t f old new, Json.ofKeyed (report "u") = .ofKeyed t ∧
        Json.ofKeyed (report "unit") = .ofKeyed f ∧ Moved t f old new ∧
        f.values.Perm t.values := by
  have hordered : (Json.ofKeyed (report "u")).Ordered :=
    ⟨(report "u").ordered, trivial, trivial, trivial⟩
  have hmoved : Moved (report "u") (report "unit") "u" "unit" := by
    have heq : report "unit" = ((report "u").erase "u").insert "unit" (.string "C") :=
      Keyed.entries_injective rfl
    rw [heq]
    exact moved_insert_erase rfl rfl
  have hrepairs : Repairs violationsOf reportSchema (.ofKeyed (report "u"))
      (.ofKeyed (report "unit")) := .intro rfl rfl rfl hmoved rfl
  refine ⟨refusesForeignNames_violationsOf, hordered, ?_, ?_, ?_⟩
  · exact (repair_iff.1 _ refusesForeignNames_violationsOf _ _ _ hordered).2 hrepairs
  · exact (repair_iff.2.1 _ _ _ hordered).2 hrepairs
  · exact repair_iff.2.2 _ _ _ _ hrepairs

end Json

end Conductor

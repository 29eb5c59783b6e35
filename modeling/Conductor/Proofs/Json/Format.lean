import Conductor.Json.Format
import Conductor.Proofs.Json.Order
import Conductor.Proofs.Json.Reading
import Mathlib.Data.List.Forall2

/-!
# Documents that have a format

`Format.Accepts f j` says that every document of the value `j`, wherever it comes from, has the
format `f` and that `j` is its normal form, and that a document of `j` up to a fault does not have
it. There is one lemma for each kind of format, so that a codec is checked by putting the lemmas of
its fields together.

* `Json.Document.Holds.value` : the value of a document of a value with ordered members;
* `Json.Document.Breaks.no_value`, `Json.parse_nested` : a document with a fault has none, and so
  neither has a text that opens too many brackets;
* `Json.Format.Accepts.record`, `Json.Format.Accepts.tagged` : a record, and a tagged object, of
  fields that are all there in the order of the format;
* `Json.readAs_record`, `Json.readAs_tagged` : the same of such fields in another order.
-/

namespace Conductor

namespace Json

variable {src : Source} {d : Document} {items : Items} {members : Members}

/-! ### Results -/

section Results

variable {α ε : Type}

theorem ok_of_mapError {ε' : Type} {x : Except ε α} {f : ε → ε'} {a : α}
    (h : x.mapError f = .ok a) : x = .ok a := by
  cases x with
  | error e => cases h
  | ok b =>
    cases h
    rfl

theorem ok_of_anchor {m : Option Mark} {x : Except Refusal α} {a : α} (h : anchor m x = .ok a) :
    x = .ok a := by
  rcases x with ⟨cause, _ | m'⟩ | b
  · cases h
  · cases h
  · exact h

end Results

/-! ### The value of a document -/

mutual

/-- Places have no part in the value of a document. -/
theorem Document.value_unmarked : (d : Document) → d.unmarked.value = d.value
  | .scalar _ _ => rfl
  | .list _ items => by simp only [Document.unmarked, Document.value, Items.values_unmarked items]
  | .object _ members => by
    simp only [Document.unmarked, Document.value, Members.values_unmarked members]
  | .broken _ => rfl

theorem Items.values_unmarked : (d : Items) → d.unmarked.values = d.values
  | .close _ => rfl
  | .cut _ => rfl
  | .cons item _ rest => by
    simp only [Items.unmarked, Items.values, Document.value_unmarked item,
      Items.values_unmarked rest]

theorem Members.values_unmarked : (d : Members) → d.unmarked.values = d.values
  | .close _ => rfl
  | .cut _ => rfl
  | .cons _ _ value _ rest => by
    simp only [Members.unmarked, Members.values, Document.value_unmarked value,
      Members.values_unmarked rest]

end

/-- What is read of a document of a value is the sorted value. -/
theorem Document.Holds.value_sorted {j : Json} (h : d.Holds j) : d.value = .ok j.sorted := by
  rw [← value_unmarked, h, value_ofJson]

theorem Document.Holds.value {j : Json} (h : d.Holds j) (hj : j.Ordered) : d.value = .ok j := by
  rw [h.value_sorted, sorted_of_ordered j hj]

/-! ### Documents by their values -/

mutual

/-- The document of a value is one of that value. -/
theorem Document.holds_ofJson : (j : Json) → (Document.ofJson j).Holds j
  | .null => rfl
  | .bool _ => rfl
  | .number _ => rfl
  | .string _ => rfl
  | .array xs => congrArg (Document.list none) (Items.hold_ofJson xs)
  | .object ms => congrArg (Document.object none) (Members.hold_ofJson ms)

theorem Items.hold_ofJson : (xs : List Json) → (Items.ofJson xs).Hold xs
  | [] => rfl
  | x :: xs => .cons (Document.holds_ofJson x) (Items.hold_ofJson xs) none

theorem Members.hold_ofJson : (ms : List (String × Json)) → (Members.ofJson ms).Hold ms
  | [] => rfl
  | (k, x) :: ms => .cons (Document.holds_ofJson x) (Members.hold_ofJson ms) k none none

end

theorem Document.Holds.scalar {v : Scalar} (h : d.Holds v.toJson) :
    ∃ place, d = .scalar v place := by
  have h' : d.unmarked = .scalar v none := h.trans (by cases v <;> rfl)
  cases d with
  | scalar w place =>
    obtain ⟨rfl, -⟩ := Document.scalar.inj h'
    exact ⟨place, rfl⟩
  | list _ _ => cases h'
  | object _ _ => cases h'
  | broken _ => cases h'

theorem Document.Holds.array {xs : List Json} (h : d.Holds (.array xs)) :
    ∃ before items, d = .list before items ∧ items.Hold xs := by
  cases d with
  | list before items => exact ⟨before, items, rfl, (Document.list.inj h).2⟩
  | scalar _ _ => cases h
  | object _ _ => cases h
  | broken _ => cases h

theorem Document.Holds.object {ms : List (String × Json)} (h : d.Holds (.object ms)) :
    ∃ before members, d = .object before members ∧ members.Hold ms := by
  cases d with
  | object before members => exact ⟨before, members, rfl, (Document.object.inj h).2⟩
  | scalar _ _ => cases h
  | list _ _ => cases h
  | broken _ => cases h

theorem Items.Hold.nil (h : items.Hold []) : ∃ after, items = .close after := by
  cases items with
  | close after => exact ⟨after, rfl⟩
  | cut _ => cases h
  | cons _ _ _ => cases h

theorem Items.Hold.uncons {x : Json} {xs : List Json} (h : items.Hold (x :: xs)) :
    ∃ d settled rest, items = .cons d settled rest ∧ d.Holds x ∧ rest.Hold xs := by
  cases items with
  | close _ => cases h
  | cut _ => cases h
  | cons d settled rest =>
    obtain ⟨hd, -, hrest⟩ := Items.cons.inj h
    exact ⟨d, settled, rest, rfl, hd, hrest⟩

theorem Members.Hold.nil (h : members.Hold []) : ∃ after, members = .close after := by
  cases members with
  | close after => exact ⟨after, rfl⟩
  | cut _ => cases h
  | cons _ _ _ _ _ => cases h

theorem Members.Hold.uncons {k : String} {x : Json} {ms : List (String × Json)}
    (h : members.Hold ((k, x) :: ms)) :
    ∃ afterKey d settled rest, members = .cons k afterKey d settled rest ∧ d.Holds x ∧
      rest.Hold ms := by
  cases members with
  | close _ => cases h
  | cut _ => cases h
  | cons key afterKey d settled rest =>
    obtain ⟨rfl, -, hd, -, hrest⟩ := Members.cons.inj h
    exact ⟨afterKey, d, settled, rest, rfl, hd, hrest⟩

/-! ### Documents up to a fault -/

mutual

/-- A document with a fault has no value. -/
theorem Document.Breaks.no_value : {j : Json} → {d : Document} → d.Breaks j → (v : Json) →
    d.value ≠ .ok v
  | _, _, .broken _ _, _ => nofun
  | .array _, _, .list h, _ => fun hv => by
    obtain ⟨vs, hvs, -⟩ := ok_of_bind hv
    exact h.no_values vs hvs
  | .object _, _, .object h, _ => fun hv => by
    obtain ⟨vs, hvs, -⟩ := ok_of_bind hv
    exact h.no_values vs hvs

theorem Items.Break.no_values : {xs : List Json} → {items : Items} → items.Break xs →
    (vs : List Json) → items.values ≠ .ok vs
  | _ :: _, _, .here h, _ => fun hv => by
    obtain ⟨v, hv, -⟩ := ok_of_bind hv
    exact h.no_value v hv
  | _ :: _, _, .behind _ h, _ => fun hv => by
    obtain ⟨v, -, hv⟩ := ok_of_bind hv
    obtain ⟨vs, hvs, -⟩ := ok_of_bind hv
    exact h.no_values vs hvs

theorem Members.Break.no_values : {ms : List (String × Json)} → {members : Members} →
    members.Break ms → (vs : List (String × Json)) → members.values ≠ .ok vs
  | _ :: _, _, .here h, _ => fun hv => by
    obtain ⟨v, hv, -⟩ := ok_of_bind hv
    exact h.no_value v hv
  | _ :: _, _, .behind _ h, _ => fun hv => by
    obtain ⟨v, -, hv⟩ := ok_of_bind hv
    obtain ⟨vs, hvs, -⟩ := ok_of_bind hv
    exact h.no_values vs hvs

end

/-- A text that opens more brackets than may be opened has no value. -/
theorem parse_nested {j : Json} {s : String} (hj : j.Exact) (h : Written j s.toList)
    (hdepth : depthLimit ≤ j.depth) : ∃ e, parse s = .error e := by
  have hbreaks : (Document.read s).1.Breaks j := Document.read_nested hj h hdepth
  obtain ⟨e, he⟩ : ∃ e, (Document.read s).1.value = .error e := by
    cases hvalue : (Document.read s).1.value with
    | error e => exact ⟨e, rfl⟩
    | ok v => exact absurd hvalue (hbreaks.no_value v)
  refine ⟨e, ?_⟩
  unfold parse
  split
  · next d hread => rwa [hread] at he
  · next d e' hread =>
    rw [hread] at he
    rw [he]
    rfl

theorem Document.Breaks.scalar {v : Scalar} (h : d.Breaks v.toJson) : ∃ e, d = .broken e := by
  cases v <;> (cases h; exact ⟨_, rfl⟩)

/-- A fault is a refusal in every format. -/
theorem Document.Breaks.readAs_scalar {v : Scalar} {f : Format} (h : d.Breaks v.toJson) (w : Json) :
    readAs src f d ≠ .ok w := by
  obtain ⟨e, rfl⟩ := h.scalar
  nofun

theorem Document.Breaks.broken_or_list {xs : List Json} (h : d.Breaks (.array xs)) :
    (∃ e, d = .broken e) ∨ ∃ before items, d = .list before items ∧ items.Break xs := by
  cases h with
  | broken e => exact .inl ⟨e, rfl⟩
  | list h => exact .inr ⟨_, _, rfl, h⟩

theorem Document.Breaks.broken_or_object {ms : List (String × Json)} (h : d.Breaks (.object ms)) :
    (∃ e, d = .broken e) ∨ ∃ before members, d = .object before members ∧ members.Break ms := by
  cases h with
  | broken e => exact .inl ⟨e, rfl⟩
  | object h => exact .inr ⟨_, _, rfl, h⟩

/-! ### Formats that accept a value -/

/-- A document of the value has the format, with the value as its normal form, and a document of
the value up to a fault does not have it. -/
structure Format.Accepts (f : Format) (j : Json) : Prop where
  reads : ∀ src d, d.Holds j → readAs src f d = .ok j
  refuses : ∀ src d, d.Breaks j → ∀ v, readAs src f d ≠ .ok v

namespace Format.Accepts

theorem any {j : Json} (h : j.Ordered) : Format.any.Accepts j where
  reads src d hd := by
    rw [readAs_any, hd.value h]
    rfl
  refuses src d hd v hv := by
    rw [readAs_any] at hv
    exact hd.no_value v (ok_of_mapError hv)

theorem text {expected s : String} {check : String → Except String Unit} (h : check s = .ok ()) :
    (Format.text expected check).Accepts (.string s) where
  reads src d hd := by
    obtain ⟨place, rfl⟩ := hd.scalar (v := .string s)
    simp only [readAs, readScalar, h]
  refuses src d hd := hd.readAs_scalar (v := .string s)

theorem string (s : String) : Format.string.Accepts (.string s) := text rfl

theorem bool (b : Bool) : Format.bool.Accepts (.bool b) where
  reads src d hd := by
    obtain ⟨place, rfl⟩ := hd.scalar (v := .bool b)
    rfl
  refuses src d hd := hd.readAs_scalar (v := .bool b)

theorem unsigned {name : String} {bound n : Nat} (h : n ≤ bound) :
    (Format.unsigned name bound).Accepts (.nat n) where
  reads src d hd := by
    obtain ⟨place, rfl⟩ := hd.scalar (v := .number (.int n))
    have hrange : 0 ≤ (n : Int) ∧ (n : Int) ≤ bound := ⟨Int.natCast_nonneg n, Int.ofNat_le.2 h⟩
    simp only [readAs, readScalar, if_pos hrange]
    rfl
  refuses src d hd := hd.readAs_scalar (v := .number (.int n))

theorem choice {variants : List String} {s : String} (h : s ∈ variants) :
    (Format.choice variants).Accepts (.string s) where
  reads src d hd := by
    obtain ⟨place, rfl⟩ := hd.scalar (v := .string s)
    simp only [readAs, readScalar, List.contains_iff_mem.2 h, if_true]
  refuses src d hd := hd.readAs_scalar (v := .string s)

theorem readEach_ok {f : Format} {xs : List Json} (h : ∀ x ∈ xs, f.Accepts x)
    (hitems : items.Hold xs) : readEach src f items = .ok xs := by
  induction xs generalizing items with
  | nil =>
    obtain ⟨after, rfl⟩ := hitems.nil
    rfl
  | cons x xs ih =>
    obtain ⟨d, settled, rest, rfl, hd, hrest⟩ := hitems.uncons
    rw [readEach, (h x (List.mem_cons_self ..)).reads src d hd,
      ih (fun y hy => h y (List.mem_cons_of_mem _ hy)) hrest]
    rfl

theorem readEach_breaks {f : Format} {xs vs : List Json} (h : ∀ x ∈ xs, f.Accepts x)
    (hitems : items.Break xs) : readEach src f items ≠ .ok vs := by
  intro hread
  induction xs generalizing items vs with
  | nil => cases hitems
  | cons x xs ih =>
    obtain ⟨hx, hxs⟩ := List.forall_mem_cons.1 h
    cases hitems with
    | here hd =>
      obtain ⟨v, hv, -⟩ := ok_of_bind hread
      exact hx.refuses src _ hd v (ok_of_anchor hv)
    | behind hd hrest =>
      obtain ⟨v, -, hread⟩ := ok_of_bind hread
      obtain ⟨others, hothers, -⟩ := ok_of_bind hread
      exact ih hxs hrest hothers

theorem list {f : Format} {xs : List Json} (h : ∀ x ∈ xs, f.Accepts x) :
    (Format.list f).Accepts (.array xs) where
  reads src d hd := by
    obtain ⟨before, items, rfl, hitems⟩ := hd.array
    rw [readAs, readEach_ok h hitems]
    rfl
  refuses src d hd v hv := by
    obtain ⟨e, rfl⟩ | ⟨before, items, rfl, hitems⟩ := hd.broken_or_list
    · cases hv
    · rw [readAs] at hv
      obtain ⟨vs, hvs, -⟩ := ok_of_bind hv
      exact readEach_breaks h hitems hvs

theorem strings (l : List String) : (Format.list .string).Accepts (.strings l) := by
  refine list fun x hx => ?_
  obtain ⟨s, -, rfl⟩ := List.mem_map.1 hx
  exact string s

theorem readTable_ok {f : Format} {ms : List (String × Json)} (h : ∀ m ∈ ms, f.Accepts m.2)
    (hmembers : members.Hold ms) : readTable src f members = .ok ms := by
  induction ms generalizing members with
  | nil =>
    obtain ⟨after, rfl⟩ := hmembers.nil
    rfl
  | cons m ms ih =>
    obtain ⟨afterKey, d, settled, rest, rfl, hd, hrest⟩ := hmembers.uncons
    rw [readTable, (h m (List.mem_cons_self ..)).reads src d hd,
      ih (fun y hy => h y (List.mem_cons_of_mem _ hy)) hrest]
    rfl

theorem readTable_breaks {f : Format} {ms vs : List (String × Json)}
    (h : ∀ m ∈ ms, f.Accepts m.2) (hmembers : members.Break ms) :
    readTable src f members ≠ .ok vs := by
  intro hread
  induction ms generalizing members vs with
  | nil => cases hmembers
  | cons m ms ih =>
    obtain ⟨hm, hms⟩ := List.forall_mem_cons.1 h
    cases hmembers with
    | here hd =>
      obtain ⟨v, hv, -⟩ := ok_of_bind hread
      exact hm.refuses src _ hd v (ok_of_anchor hv)
    | behind hd hrest =>
      obtain ⟨v, -, hread⟩ := ok_of_bind hread
      obtain ⟨others, hothers, -⟩ := ok_of_bind hread
      exact ih hms hrest hothers

theorem table {f : Format} {ms : List (String × Json)} (hkeys : KeyOrdered ms)
    (h : ∀ m ∈ ms, f.Accepts m.2) : (Format.table f).Accepts (.object ms) where
  reads src d hd := by
    obtain ⟨before, members, rfl, hmembers⟩ := hd.object
    rw [readAs, readTable_ok h hmembers]
    exact congrArg (fun l => Except.ok (Json.object l)) (Keyed.ofList_entries hkeys)
  refuses src d hd v hv := by
    obtain ⟨e, rfl⟩ | ⟨before, members, rfl, hmembers⟩ := hd.broken_or_object
    · cases hv
    · rw [readAs] at hv
      obtain ⟨vs, hvs, -⟩ := ok_of_bind hv
      exact readTable_breaks h hmembers hvs

end Format.Accepts

/-! ### Records -/

/-- The value may stand for a field. -/
def Fills (field : Presence × Format) (j : Json) : Prop :=
  field.2.Accepts j ∨ (field.1 = .nullable ∧ j = .null)

/-- The members are the fields of a record in their order, each with a value that it accepts. -/
def FillAll (fields : List (String × Presence × Format)) (ms : List (String × Json)) : Prop :=
  List.Forall₂ (fun field m => field.1 = m.1 ∧ Fills field.2 m.2) fields ms

/-- The value of a field. -/
def readField (src : Source) (presence : Presence) (f : Format) (settled : Option Mark)
    (d : Document) : Except Refusal Json :=
  match presence, d with
  | .nullable, .scalar .null _ => pure .null
  | _, _ => anchor (src.place settled) (readAs src f d)

theorem readField_ok {presence : Presence} {f : Format} {j : Json} (hj : Fills (presence, f) j)
    (hd : d.Holds j) (settled : Option Mark) : readField src presence f settled d = .ok j := by
  unfold readField
  split
  next place =>
    cases j with
    | null => rfl
    | _ => cases hd
  next hnull =>
    rcases hj with hj | ⟨rfl, rfl⟩
    · rw [hj.reads src d hd]
      rfl
    · obtain ⟨place, rfl⟩ := hd.scalar (v := .null)
      exact absurd rfl (hnull place rfl)

theorem readField_breaks {presence : Presence} {f : Format} {j v : Json}
    (hj : Fills (presence, f) j) (hd : d.Breaks j) {settled : Option Mark} :
    readField src presence f settled d ≠ .ok v := by
  intro h
  unfold readField at h
  split at h
  · exact hd.no_value .null rfl
  · rcases hj with hj | ⟨-, rfl⟩
    · exact hj.refuses src d hd v (ok_of_anchor h)
    · exact hd.readAs_scalar (v := .null) v (ok_of_anchor h)

section Fields

variable {passed : Option String} {closed : Bool} {fields : List (String × Presence × Format)}
  {found : List (String × Json)} {k : String} {afterKey settled : Option Mark} {rest : Members}
  {presence : Presence} {f : Format}

theorem readFields_field (hpassed : passed ≠ some k) (hfield : fields.lookup k = some (presence, f))
    (hfound : (found.lookup k).isSome = false) :
    readFields src passed closed fields found (.cons k afterKey d settled rest) =
      (readField src presence f settled d).bind fun v =>
        readFields src passed closed fields ((k, v) :: found) rest := by
  rw [readFields]
  simp only [if_neg hpassed, hfield, hfound, Bool.false_eq_true, if_false]
  cases presence with
  | nullable =>
    cases d with
    | scalar v place => cases v <;> rfl
    | _ => rfl
  | _ => rfl

/-- A field that is found a second time is refused. -/
theorem readFields_field_ok {r : List (String × Json) × Option Mark} (hpassed : passed ≠ some k)
    (hfield : fields.lookup k = some (presence, f))
    (h : readFields src passed closed fields found (.cons k afterKey d settled rest) = .ok r) :
    ∃ v, readField src presence f settled d = .ok v ∧
      readFields src passed closed fields ((k, v) :: found) rest = .ok r := by
  cases hfound : (found.lookup k).isSome with
  | true =>
    rw [readFields, if_neg hpassed, hfield] at h
    simp only [hfound, if_true] at h
    cases h
  | false =>
    rw [readFields_field hpassed hfield hfound] at h
    exact ok_of_bind h

theorem readFields_cons {j : Json} {field : Presence × Format} (hpassed : passed ≠ some k)
    (hfield : fields.lookup k = some field) (hfound : found.lookup k = none) (hj : Fills field j)
    (hd : d.Holds j) :
    readFields src passed closed fields found (.cons k afterKey d settled rest) =
      readFields src passed closed fields ((k, j) :: found) rest := by
  rw [readFields_field hpassed hfield (Option.isSome_eq_false_iff.2 (by rw [hfound]; rfl)),
    readField_ok hj hd]
  rfl

end Fields

/-- The members of an object with fields that are known are read one by one. -/
theorem readFields_ok {passed : Option String} {closed : Bool}
    {fields : List (String × Presence × Format)} {ms found : List (String × Json)}
    (hpassed : ∀ m ∈ ms, passed ≠ some m.1)
    (hfields : ∀ m ∈ ms, ∃ field, fields.lookup m.1 = some field ∧ Fills field m.2)
    (hnodup : ((found ++ ms).map (·.1)).Nodup) (hmembers : members.Hold ms) :
    ∃ after,
      readFields src passed closed fields found members = .ok (ms.reverse ++ found, after) := by
  induction ms generalizing found members with
  | nil =>
    obtain ⟨after, rfl⟩ := hmembers.nil
    exact ⟨after, rfl⟩
  | cons m ms ih =>
    obtain ⟨k, j⟩ := m
    obtain ⟨afterKey, d, settled, rest, rfl, hd, hrest⟩ := hmembers.uncons
    obtain ⟨field, hfield, hj⟩ := hfields (k, j) (List.mem_cons_self ..)
    -- what is found is collected in front, so the names are different in another order
    have hnodup' : (((k, j) :: found ++ ms).map (·.1)).Nodup :=
      (List.perm_middle.map _).nodup_iff.1 hnodup
    have hfound : found.lookup k = none := by
      rw [List.lookup_eq_none_iff]
      intro p hp
      have hk : k ∉ (found ++ ms).map (·.1) := (List.nodup_cons.1 hnodup').1
      refine bne_iff_ne.2 fun heq => hk ?_
      exact heq ▸ List.mem_map_of_mem (List.mem_append_left ms hp)
    obtain ⟨after, h⟩ := ih (fun m hm => hpassed m (List.mem_cons_of_mem _ hm))
      (fun m hm => hfields m (List.mem_cons_of_mem _ hm)) hnodup' hrest
    refine ⟨after, ?_⟩
    rw [readFields_cons (hpassed (k, j) (List.mem_cons_self ..)) hfield hfound hj hd, h,
      List.reverse_cons, List.append_assoc]
    rfl

/-- An object of fields that are known is refused with a fault in one of them. -/
theorem readFields_breaks {passed : Option String} {closed : Bool}
    {fields : List (String × Presence × Format)} {ms found : List (String × Json)}
    {r : List (String × Json) × Option Mark} (hpassed : ∀ m ∈ ms, passed ≠ some m.1)
    (hfields : ∀ m ∈ ms, ∃ field, fields.lookup m.1 = some field ∧ Fills field m.2)
    (hmembers : members.Break ms) : readFields src passed closed fields found members ≠ .ok r := by
  intro hread
  induction ms generalizing found members with
  | nil => cases hmembers
  | cons m ms ih =>
    obtain ⟨hm, hms⟩ := List.forall_mem_cons.1 hpassed
    obtain ⟨⟨⟨presence, f⟩, hfield, hj⟩, hrests⟩ := List.forall_mem_cons.1 hfields
    cases hmembers with
    | here hd =>
      obtain ⟨v, hv, -⟩ := readFields_field_ok hm hfield hread
      exact readField_breaks hj hd hv
    | behind hd hrest =>
      obtain ⟨v, -, hread⟩ := readFields_field_ok hm hfield hread
      exact ih hms hrests hrest hread

theorem lookup_of_mem {α : Type} {l : List (String × α)} (h : (l.map (·.1)).Nodup) {k : String}
    {a : α} (hmem : (k, a) ∈ l) : l.lookup k = some a := by
  induction l with
  | nil => cases hmem
  | cons p l ih =>
    rcases List.mem_cons.1 hmem with rfl | hmem
    · exact List.lookup_cons_self
    · obtain ⟨hp, hl⟩ := List.nodup_cons.1 h
      have hne : (k == p.1) = false :=
        beq_false_of_ne fun heq => hp (List.mem_map.2 ⟨_, hmem, heq⟩)
      rw [List.lookup_cons, hne]
      exact ih hl hmem

section FillAll

variable {fields : List (String × Presence × Format)} {ms : List (String × Json)}

theorem FillAll.names (h : FillAll fields ms) : fields.map (·.1) = ms.map (·.1) := by
  induction h with
  | nil => rfl
  | cons hfield _ ih => rw [List.map_cons, List.map_cons, hfield.1, ih]

theorem FillAll.field (h : FillAll fields ms) :
    ∀ m ∈ ms, ∃ field, (m.1, field) ∈ fields ∧ Fills field m.2 := by
  induction h with
  | nil => nofun
  | @cons field m _ _ hfield _ ih =>
    intro m' hm'
    rcases List.mem_cons.1 hm' with rfl | hm'
    · exact ⟨field.2, hfield.1 ▸ List.mem_cons_self .., hfield.2⟩
    · obtain ⟨field', hmem, hfill⟩ := ih m' hm'
      exact ⟨field', List.mem_cons_of_mem _ hmem, hfill⟩

theorem FillAll.lookup (h : FillAll fields ms) (hnodup : (fields.map (·.1)).Nodup) :
    ∀ m ∈ ms, ∃ field, fields.lookup m.1 = some field ∧ Fills field m.2 := by
  intro m hm
  obtain ⟨field, hmem, hfill⟩ := h.field m hm
  exact ⟨field, lookup_of_mem hnodup hmem, hfill⟩

/-- The fields that were found, in whatever order, are completed in the order of the format. -/
theorem complete_ok {found : List (String × Json)} (h : FillAll fields ms)
    (hfound : ∀ m ∈ ms, found.lookup m.1 = some m.2) : complete found fields = .ok ms := by
  induction h with
  | nil => rfl
  | @cons field m _ _ hfield _ ih =>
    obtain ⟨name, presence, f⟩ := field
    obtain ⟨k, j⟩ := m
    obtain rfl : name = k := hfield.1
    have hj : found.lookup name = some j := hfound (name, j) (List.mem_cons_self ..)
    unfold complete
    rw [hj, ih fun m hm => hfound m (List.mem_cons_of_mem _ hm)]
    rfl

theorem complete_perm {found : List (String × Json)} (h : FillAll fields ms)
    (hnodup : (fields.map (·.1)).Nodup) (hfound : found.Perm ms) :
    complete found fields = .ok ms := by
  rw [h.names] at hnodup
  exact complete_ok h fun m hm =>
    lookup_of_mem ((hfound.map _).nodup_iff.2 hnodup) (hfound.mem_iff.2 hm)

/-- A record of fields that are all there, in whatever order, has them in the order of the format in
its normal form. -/
theorem readAs_record {name : String} {closed : Bool} {finish : Json → Except String Json}
    {written : List (String × Json)} (hnodup : (fields.map (·.1)).Nodup) (h : FillAll fields ms)
    (hfinish : finish (.object ms) = .ok (.object ms)) (hperm : written.Perm ms)
    (hd : d.Holds (.object written)) :
    readAs src (.record name closed fields finish) d = .ok (.object ms) := by
  obtain ⟨before, members, rfl, hmembers⟩ := hd.object
  have hnames : (written.map (·.1)).Perm (fields.map (·.1)) := h.names ▸ hperm.map _
  obtain ⟨after, hread⟩ : ∃ after,
      readFields src none closed fields [] members = .ok (written.reverse ++ [], after) :=
    readFields_ok (fun _ _ => nofun) (fun m hm => h.lookup hnodup m (hperm.mem_iff.1 hm))
      (hnames.nodup_iff.2 hnodup) hmembers
  have hcomplete : complete written.reverse fields = .ok ms :=
    complete_perm h hnodup (written.reverse_perm.trans hperm)
  rw [List.append_nil] at hread
  simp only [readAs, hread, hcomplete, hfinish, bind, Except.bind]
  rfl

/-- A record of fields that are all there, in the order of the format, is in normal form. -/
theorem Format.Accepts.record {name : String} {closed : Bool} {finish : Json → Except String Json}
    (hnodup : (fields.map (·.1)).Nodup) (h : FillAll fields ms)
    (hfinish : finish (.object ms) = .ok (.object ms)) :
    (Format.record name closed fields finish).Accepts (.object ms) where
  reads _ _ := readAs_record hnodup h hfinish (.refl ms)
  refuses src d hd v hv := by
    obtain ⟨e, rfl⟩ | ⟨before, members, rfl, hmembers⟩ := hd.broken_or_object
    · cases hv
    · rw [readAs] at hv
      obtain ⟨found, hfound, -⟩ := ok_of_bind hv
      have hpassed : ∀ m ∈ ms, none ≠ some m.1 := fun m _ => (Option.some_ne_none m.1).symm
      exact readFields_breaks hpassed (h.lookup hnodup) hmembers hfound

theorem findTag_found {tag variant : String} {variants : List String}
    (htag : tag ∉ ms.map (·.1)) (hmembers : members.Hold ms) :
    findTag src tag variants (some variant) members = .ok variant := by
  induction ms generalizing members with
  | nil =>
    obtain ⟨after, rfl⟩ := hmembers.nil
    rfl
  | cons m ms ih =>
    obtain ⟨k, j⟩ := m
    obtain ⟨afterKey, d, settled, rest, rfl, hd, hrest⟩ := hmembers.uncons
    rw [List.map_cons, List.mem_cons, not_or] at htag
    rw [findTag, if_neg (Ne.symm htag.1), hd.value_sorted]
    exact ih htag.2 hrest

/-- Only a string is a tag. -/
theorem readTag_breaks {variants : List String} {j : Json} {v : String} (hd : d.Breaks j) :
    readTag src variants d ≠ .ok v := by
  intro h
  cases hd <;> cases h

/-- A tagged object is gone through as a whole before its variant is known. -/
theorem findTag_breaks {tag v : String} {variants : List String} {found : Option String}
    (hmembers : members.Break ms) : findTag src tag variants found members ≠ .ok v := by
  intro h
  induction ms generalizing members found with
  | nil => cases hmembers
  | cons m ms ih =>
    cases hmembers with
    | here hd =>
      rw [findTag] at h
      split at h
      · split at h
        · cases h
        · obtain ⟨w, hw, -⟩ := ok_of_bind h
          exact readTag_breaks hd hw
      · obtain ⟨w, hw, -⟩ := ok_of_bind h
        exact hd.no_value w (ok_of_mapError hw)
    | behind hd hrest =>
      rw [findTag] at h
      split at h
      · split at h
        · cases h
        · obtain ⟨w, -, h⟩ := ok_of_bind h
          exact ih hrest h
      · obtain ⟨w, -, h⟩ := ok_of_bind h
        exact ih hrest h

/-- A tagged object with its tag in front of all the fields of its variant, in whatever order, has
them in the order of the format in its normal form. -/
theorem readAs_tagged {name tag variant expected : String}
    {variants : List (String × String × List (String × Presence × Format))}
    {written : List (String × Json)} (hvariant : variants.lookup variant = some (expected, fields))
    (hnodup : (fields.map (·.1)).Nodup) (htag : tag ∉ fields.map (·.1)) (h : FillAll fields ms)
    (hperm : written.Perm ms) (hd : d.Holds (.object ((tag, .string variant) :: written))) :
    readAs src (.tagged name tag variants) d = .ok (.object ((tag, .string variant) :: ms)) := by
  obtain ⟨before, members, rfl, hmembers⟩ := hd.object
  obtain ⟨afterKey, d, settled, rest, rfl, hd, hrest⟩ := hmembers.uncons
  obtain ⟨place, rfl⟩ := hd.scalar (v := .string variant)
  have hnames : (written.map (·.1)).Perm (fields.map (·.1)) := h.names ▸ hperm.map _
  have htag' : tag ∉ written.map (·.1) := fun hmem => htag (hnames.mem_iff.1 hmem)
  have hmem : variant ∈ variants.map (·.1) := List.mem_map_of_mem (mem_of_lookup hvariant)
  have hread :
      readTag src (variants.map (·.1)) (.scalar (.string variant) place) = .ok variant := by
    simp only [readTag, List.contains_iff_mem.2 hmem, if_true]
  -- the members are gone through twice: once for the tag, and once for the fields behind it
  have hfind : findTag src tag (variants.map (·.1)) none
      (.cons tag afterKey (.scalar (.string variant) place) settled rest) = .ok variant := by
    rw [findTag, if_pos rfl, hread]
    exact findTag_found htag' hrest
  have hpassed : ∀ m ∈ written, some tag ≠ some m.1 := by
    intro m hm heq
    exact htag' (Option.some.inj heq ▸ List.mem_map_of_mem hm)
  obtain ⟨after, hfields⟩ : ∃ after,
      readFields .buffered (some tag) false fields [] rest = .ok (written.reverse ++ [], after) :=
    readFields_ok hpassed (fun m hm => h.lookup hnodup m (hperm.mem_iff.1 hm))
      (hnames.nodup_iff.2 hnodup) hrest
  rw [List.append_nil] at hfields
  have hskip : readFields .buffered (some tag) false fields []
      (.cons tag afterKey (.scalar (.string variant) place) settled rest) =
        .ok (written.reverse, after) := by
    rw [readFields, if_pos rfl, hfields]
  simp only [readAs, hfind, bind, Except.bind, hvariant, Option.getD_some, hskip,
    complete_perm h hnodup (written.reverse_perm.trans hperm)]
  rfl

/-- A tagged object with its tag in front of all the fields of its variant is in normal form. -/
theorem Format.Accepts.tagged {name tag variant expected : String}
    {variants : List (String × String × List (String × Presence × Format))}
    (hvariant : variants.lookup variant = some (expected, fields))
    (hnodup : (fields.map (·.1)).Nodup) (htag : tag ∉ fields.map (·.1)) (h : FillAll fields ms) :
    (Format.tagged name tag variants).Accepts (.object ((tag, .string variant) :: ms)) where
  reads _ _ := readAs_tagged hvariant hnodup htag h (.refl ms)
  refuses src d hd v hv := by
    obtain ⟨e, rfl⟩ | ⟨before, members, rfl, hmembers⟩ := hd.broken_or_object
    · cases hv
    · rw [readAs] at hv
      obtain ⟨variant, hvariant, -⟩ := ok_of_bind hv
      exact findTag_breaks hmembers hvariant

end FillAll

end Json

end Conductor

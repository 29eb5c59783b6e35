import Conductor.Json.Printer
import Conductor.Proofs.Json.Format

/-!
# Codecs that keep a value

A codec keeps a value when what it writes has its format, in normal form, and stands for the value
again. Such a value is then read from every text of what is written, as long as the numbers in it
are read back and no more than 127 brackets are open at once.

* `Json.Storable`, `Json.Kept` : the values that are kept, of ordered members and of numbers that are
  read back;
* `Json.Codec.Keeps`, `Json.Codec.Stores` : a codec keeps a value, and every number in what it
  writes is read back;
* `Json.Codec.Keeps.ofText_written` : **a value that a codec keeps is read from any text of what
  the codec writes;**
* `Json.Codec.Keeps.ofText_nested` : **such a text that opens too many brackets is refused;**
* `Json.Codec.Stores.reads_back`, `Json.Codec.Stores.refused` : both of what is printed.
-/

namespace Conductor

namespace Json

variable {fields : List (String × Presence × Format)} {ms : List (String × Json)} {k : String}
  {p : Presence} {f : Format} {j : Json}

/-! ### Fields and tables -/

theorem FillAll.nil : FillAll [] [] := List.Forall₂.nil

theorem FillAll.cons (hj : f.Accepts j) (h : FillAll fields ms) :
    FillAll ((k, p, f) :: fields) ((k, j) :: ms) :=
  List.Forall₂.cons ⟨rfl, .inl hj⟩ h

theorem FillAll.option {α : Type} {write : α → Json} {o : Option α}
    (ho : ∀ a ∈ o, f.Accepts (write a)) (h : FillAll fields ms) :
    FillAll ((k, .nullable, f) :: fields) ((k, .ofOption write o) :: ms) := by
  refine List.Forall₂.cons ⟨rfl, ?_⟩ h
  cases o with
  | none => exact .inr ⟨rfl, rfl⟩
  | some a => exact .inl (ho a rfl)

theorem Format.Accepts.u32 {n : Nat} (h : n < 2 ^ 32) : Format.u32.Accepts (.nat n) :=
  .unsigned (Nat.le_sub_one_of_lt h)

theorem Format.Accepts.u64 {n : Nat} (h : n < 2 ^ 64) : Format.u64.Accepts (.nat n) :=
  .unsigned (Nat.le_sub_one_of_lt h)

theorem Format.Accepts.count {n : Nat} (h : n < 2 ^ 64) : Format.count.Accepts (.nat n) :=
  .unsigned (Nat.le_sub_one_of_lt h)

theorem Format.Accepts.entries {α : Type} (write : α → Json) {t : Keyed α}
    (h : ∀ p ∈ t.entries, f.Accepts (write p.2)) :
    (Format.table f).Accepts (.object (t.entries.map fun p => (p.1, write p.2))) := by
  refine .table ?_ fun m hm => ?_
  · rw [KeyOrdered, List.pairwise_map]
    exact t.ordered
  · obtain ⟨p, hp, rfl⟩ := List.mem_map.1 hm
    exact h p hp

/-! ### Numbers -/

theorem exact_nat {n : Nat} (h : n < 2 ^ 64) : (Json.nat n).Exact :=
  Number.readsBack_int (by omega) (by omega)

theorem exactItems_iff {xs : List Json} : ExactItems xs ↔ ∀ x ∈ xs, x.Exact := by
  induction xs with
  | nil => simp [ExactItems]
  | cons x xs ih => simp [ExactItems, ih]

theorem exactMembers_iff : ExactMembers ms ↔ ∀ m ∈ ms, m.2.Exact := by
  induction ms with
  | nil => simp [ExactMembers]
  | cons m ms ih => simp [ExactMembers, ih]

theorem exact_strings (l : List String) : (Json.strings l).Exact :=
  exactItems_iff.2 (List.forall_mem_map.2 fun _ _ => trivial)

theorem exact_ofOption {α : Type} {write : α → Json} {o : Option α}
    (h : ∀ a ∈ o, (write a).Exact) : (Json.ofOption write o).Exact := by
  cases o with
  | none => trivial
  | some a => exact h a rfl

theorem exactMembers_map {α : Type} (write : α → Json) {l : List (String × α)}
    (h : ∀ p ∈ l, (write p.2).Exact) : ExactMembers (l.map fun p => (p.1, write p.2)) :=
  exactMembers_iff.2 (List.forall_mem_map.2 h)

/-! ### Values that are kept -/

/-- The value is one as it is kept: the members of its objects stand in order, and its numbers are
read back from their numerals. A table carries the order of its keys with it, but a tree of tables
within each other does not: it is said of the tree as a whole. -/
structure Storable (j : Json) : Prop where
  ordered : j.Ordered
  exact : j.Exact

/-- The values that are kept. -/
abbrev Kept := { j : Json // j.Storable }

@[simp] theorem storable_null : null.Storable := ⟨trivial, trivial⟩

@[simp] theorem storable_string (s : String) : (string s).Storable := ⟨trivial, trivial⟩

@[simp] theorem storable_number {n : Number} : (number n).Storable ↔ n.ReadsBack :=
  ⟨fun h => h.exact, fun h => ⟨trivial, h⟩⟩

@[simp] theorem storable_array {xs : List Json} :
    (array xs).Storable ↔ ∀ x ∈ xs, x.Storable := by
  constructor
  · exact fun h x hx => ⟨orderedItems_iff.1 h.ordered x hx, exactItems_iff.1 h.exact x hx⟩
  · exact fun h => ⟨orderedItems_iff.2 fun x hx => (h x hx).ordered,
      exactItems_iff.2 fun x hx => (h x hx).exact⟩

/-- **An object is kept if its keys are in order and its members are kept.** -/
theorem Storable.object (hkeys : (ms.map (·.1)).Pairwise (· < ·))
    (h : ∀ m ∈ ms, m.2.Storable) : (Json.object ms).Storable where
  ordered := ⟨List.pairwise_map.1 hkeys, orderedMembers_iff.2 fun m hm => (h m hm).ordered⟩
  exact := exactMembers_iff.2 fun m hm => (h m hm).exact

theorem storable_emptyObject : emptyObject.Storable := .object .nil (by simp)

/-! ### What the parts stand for -/

theorem nat?_nat (n : Nat) : (Json.nat n).nat? = some n := by
  simp [Json.nat, nat?]

theorem texts?_strings (l : List String) : (Json.strings l).texts? = some l := by
  change (l.map Json.string).mapM text? = some l
  induction l with
  | nil => rfl
  | cons s l ih =>
    rw [List.map_cons, List.mapM_cons, ih]
    rfl

theorem optional_ofOption {α : Type} {read : Json → Option α} {write : α → Json} {o : Option α}
    (h : ∀ a ∈ o, write a ≠ .null ∧ read (write a) = some a) :
    optional read (.ofOption write o) = some o := by
  cases o with
  | none => rfl
  | some a =>
    obtain ⟨hne, hread⟩ := h a rfl
    rw [ofOption, optional, hread]
    · rfl
    · exact hne

theorem mapM_members {α : Type} {read : Json → Option α} {write : α → Json} {l : List (String × α)}
    (h : ∀ p ∈ l, read (write p.2) = some p.2) :
    (l.map fun p : String × α => (p.1, write p.2)).mapM (fun m : String × Json => do
      return (m.1, ← read m.2)) = some l := by
  induction l with
  | nil => rfl
  | cons p l ih =>
    rw [List.map_cons, List.mapM_cons, ih fun q hq => h q (List.mem_cons_of_mem _ hq)]
    simp [h p (List.mem_cons_self ..)]

/-- The entries of a table are read back as the table. -/
theorem ofList_mapM {α : Type} (read : Json → Option α) (write : α → Json) {t : Keyed α}
    (h : ∀ p ∈ t.entries, read (write p.2) = some p.2) :
    (do return Keyed.ofList (← (t.entries.map fun p => (p.1, write p.2)).mapM
      fun m : String × Json => do return (m.1, ← read m.2))) = some t := by
  rw [mapM_members h]
  exact congrArg some (Keyed.entries_injective (Keyed.ofList_entries t.ordered))

/-! ### Codecs -/

/-- What the codec writes of a value has its format, and stands for that value again. -/
structure Codec.Keeps {α : Type} (c : Codec α) (a : α) : Prop where
  accepts : c.format.Accepts (c.encode a)
  decode : c.decode? (c.encode a) = some a

/-- A value is kept, and every number in what is written of it is read back. -/
structure Codec.Stores {α : Type} (c : Codec α) (a : α) : Prop extends c.Keeps a where
  exact : (c.encode a).Exact

section Texts

variable {α : Type} {c : Codec α} {a : α} {s : String}

/-- **A value that a codec keeps is read from any text of what the codec writes**, if its brackets
may be opened. -/
theorem Codec.Keeps.ofText_written (h : c.Keeps a) (hexact : (c.encode a).Exact)
    (hwritten : Written (c.encode a) s.toList) (hdepth : (c.encode a).depth ≤ 127) :
    c.ofText s = .ok a := by
  obtain ⟨d, hread, hd⟩ := Document.read_written hexact hwritten (Nat.lt_succ_of_le hdepth)
  have hformat : c.format.ofText s = .ok (c.encode a) := by
    rw [Format.ofText, hread]
    exact h.accepts.reads .text d hd
  rw [Codec.ofText, hformat]
  change c.finish (c.encode a) = .ok a
  rw [Codec.finish, h.decode]

/-- **A text of what the codec writes that opens more brackets than may be opened is refused.** -/
theorem Codec.Keeps.ofText_nested (h : c.Keeps a) (hexact : (c.encode a).Exact)
    (hwritten : Written (c.encode a) s.toList) (hdepth : 127 < (c.encode a).depth) :
    ∃ e, c.ofText s = .error e := by
  have hbreaks : (Document.read s).1.Breaks (c.encode a) :=
    Document.read_nested hexact hwritten hdepth
  have hformat (v : Json) : c.format.ofText s ≠ .ok v := by
    intro hread
    unfold Format.ofText at hread
    split at hread
    · next d hd =>
      rw [hd] at hbreaks
      exact h.accepts.refuses .text d hbreaks v hread
    · obtain ⟨w, -, hread⟩ := ok_of_bind hread
      cases hread
  rw [Codec.ofText]
  cases hr : c.format.ofText s with
  | error e => exact ⟨e, rfl⟩
  | ok v => exact absurd hr (hformat v)

/-- What is printed of a value, in either layout, is read as that value. -/
theorem Codec.Stores.reads_back (h : c.Stores a)
    (hdepth : (c.encode a).depth ≤ 127) :
    c.ofText (c.encode a).pretty = .ok a ∧ c.ofText (c.encode a).compact = .ok a := by
  exact ⟨h.ofText_written h.exact (written_pretty _) hdepth,
    h.ofText_written h.exact (written_compact _) hdepth⟩

/-- What is printed of a value that opens too many brackets is not read at all. -/
theorem Codec.Stores.refused (h : c.Stores a)
    (hdepth : 127 < (c.encode a).depth) : ∃ e, c.ofText (c.encode a).pretty = .error e :=
  h.ofText_nested h.exact (written_pretty _) hdepth

end Texts

end Json

end Conductor

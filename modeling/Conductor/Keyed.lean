/-!
# Keyed tables

A finite table from texts to values, kept in the order of its keys. Keys are compared character by
character, which is also the order of their bytes in UTF-8.

* `Keyed.insert` : puts a value under a key and replaces what was there;
* `Keyed.erase` : removes a key;
* `Keyed.get?` : looks a key up;
* `Keyed.entries` : the pairs in key order, no key twice (`Keyed.ordered`).
-/

namespace Conductor

/-- Puts a value into a list of pairs in key order. -/
def insertByKey {α : Type u} (k : String) (v : α) : List (String × α) → List (String × α)
  | [] => [(k, v)]
  | (k', v') :: rest =>
    if k < k' then (k, v) :: (k', v') :: rest
    else if k' < k then (k', v') :: insertByKey k v rest
    else (k, v) :: rest

/-- The pairs stand in strictly increasing order of their keys. -/
def KeyOrdered {α : Type u} (l : List (String × α)) : Prop := l.Pairwise fun a b => a.1 < b.1

theorem mem_insertByKey {α : Type u} {k : String} {v : α} {l : List (String × α)}
    {p : String × α} (h : p ∈ insertByKey k v l) : p = (k, v) ∨ p ∈ l := by
  induction l with
  | nil => simpa [insertByKey] using h
  | cons q rest ih =>
    obtain ⟨k', v'⟩ := q
    unfold insertByKey at h
    split at h
    · simpa using h
    · split at h
      · rcases List.mem_cons.1 h with h | h
        · simp [h]
        · rcases ih h with h | h <;> simp [h]
      · rcases List.mem_cons.1 h with h | h <;> simp [h]

theorem eq_of_not_key_lt {a b : String} (h₁ : ¬ a < b) (h₂ : ¬ b < a) : a = b :=
  String.le_antisymm (String.not_lt.1 h₂) (String.not_lt.1 h₁)

theorem KeyOrdered.insertByKey {α : Type u} {k : String} {v : α} {l : List (String × α)}
    (h : KeyOrdered l) : KeyOrdered (insertByKey k v l) := by
  induction l with
  | nil => simp [KeyOrdered, Conductor.insertByKey]
  | cons q rest ih =>
    obtain ⟨k', v'⟩ := q
    have hrest := List.pairwise_cons.1 h
    unfold Conductor.insertByKey
    split
    · rename_i hlt
      refine List.pairwise_cons.2 ⟨fun p hp => ?_, h⟩
      rcases List.mem_cons.1 hp with rfl | hp
      · exact hlt
      · exact String.lt_trans hlt (hrest.1 p hp)
    · rename_i hnot
      split
      · rename_i hlt
        refine List.pairwise_cons.2 ⟨fun p hp => ?_, ih hrest.2⟩
        rcases mem_insertByKey hp with rfl | hp
        · exact hlt
        · exact hrest.1 p hp
      · rename_i hnot'
        have hk : k = k' := eq_of_not_key_lt hnot hnot'
        subst hk
        exact List.pairwise_cons.2 ⟨hrest.1, hrest.2⟩

/-- A finite table from texts to values. -/
structure Keyed (α : Type u) where
  /-- The pairs of the table, in key order. -/
  entries : List (String × α)
  /-- No key stands twice. -/
  ordered : KeyOrdered entries

namespace Keyed

variable {α : Type u} {β : Type v}

instance [DecidableEq α] : DecidableEq (Keyed α) := fun a b =>
  if h : a.entries = b.entries then
    .isTrue (by cases a; cases b; simp_all)
  else .isFalse fun e => h (congrArg Keyed.entries e)

/-- The table with no key. -/
def empty : Keyed α := ⟨[], List.Pairwise.nil⟩

instance : Inhabited (Keyed α) := ⟨empty⟩

/-- The table with a value under a key, in place of what was there. -/
def insert (t : Keyed α) (k : String) (v : α) : Keyed α :=
  ⟨insertByKey k v t.entries, t.ordered.insertByKey⟩

/-- The table without the pairs that fail a test. -/
def filter (t : Keyed α) (keep : String → α → Bool) : Keyed α :=
  ⟨t.entries.filter fun p => keep p.1 p.2, t.ordered.filter _⟩

/-- The table without a key. -/
def erase (t : Keyed α) (k : String) : Keyed α := t.filter fun k' _ => k' != k

/-- The value under a key. -/
def get? (t : Keyed α) (k : String) : Option α := t.entries.lookup k

/-- The table has the key. -/
def contains (t : Keyed α) (k : String) : Bool := (t.get? k).isSome

/-- How many keys there are. -/
def size (t : Keyed α) : Nat := t.entries.length

/-- The keys in order. -/
def keys (t : Keyed α) : List String := t.entries.map (·.1)

/-- The values in key order. -/
def values (t : Keyed α) : List α := t.entries.map (·.2)

/-- The table of a list of pairs; the last pair of a key counts. -/
def ofList (l : List (String × α)) : Keyed α := l.foldl (fun t p => t.insert p.1 p.2) empty

end Keyed

end Conductor

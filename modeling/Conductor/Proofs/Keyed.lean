import Conductor.Keyed
import Mathlib.Data.List.Nodup
import Mathlib.Data.List.Perm.Subperm

/-!
# Looking up in tables

* `Keyed.get?_insert_self`, `Keyed.get?_insert_of_ne` : **a table after something was put in;**
* `Keyed.get?_erase_self`, `Keyed.get?_erase_of_ne` : and after a key was taken out;
* `Keyed.size_ofList_le` : a table of a list has no more keys than the list has pairs;
* `insertByKey_perm` : a key that was not there is put beside the others;
* `Keyed.ext_get?` : **tables in which every key has the same value are the same;**
* `Keyed.erase_insert_self`, `Keyed.erase_insert_of_ne` : putting in and taking out in either order;
* `Keyed.mapValues`, `Keyed.get?_mapValues`, `Keyed.mapValues_insert` : a table with every value
  replaced;
* `Keyed.ofList_entries` : **the table of pairs that stand in key order has just these pairs;**
* `Keyed.get?_ofList`, `Keyed.erase_ofList` : looking up in a table of a list, and taking out of it;
* `Keyed.size_ofList_eq_iff` : **no pair of a list is lost in its table just if no key stands
  twice.**
-/

namespace Conductor

section Pairs

variable {α : Type u} {k k' : String} {v : α} {l : List (String × α)}

theorem lookup_insertByKey_self : (insertByKey k v l).lookup k = some v := by
  induction l with
  | nil => simp [insertByKey]
  | cons p rest ih =>
    obtain ⟨k₀, v₀⟩ := p
    unfold insertByKey
    split
    · exact List.lookup_cons_self
    · split
      · rename_i hlt
        have hne : (k == k₀) = false := beq_false_of_ne fun h => String.lt_irrefl k (h ▸ hlt)
        rw [List.lookup_cons, hne]
        exact ih
      · exact List.lookup_cons_self

theorem lookup_insertByKey_of_ne (h : k' ≠ k) :
    (insertByKey k v l).lookup k' = l.lookup k' := by
  have hne : (k' == k) = false := beq_false_of_ne h
  induction l with
  | nil => rw [insertByKey, List.lookup_cons, hne]
  | cons p rest ih =>
    obtain ⟨k₀, v₀⟩ := p
    unfold insertByKey
    split
    · rw [List.lookup_cons, hne]
    · rename_i hnot
      split
      · rw [List.lookup_cons, List.lookup_cons, ih]
      · rename_i hnot'
        obtain rfl := eq_of_not_key_lt hnot hnot'
        rw [List.lookup_cons, List.lookup_cons, hne]

theorem mem_of_lookup (h : l.lookup k = some v) : (k, v) ∈ l := by
  obtain ⟨before, after, heq, -⟩ := List.lookup_eq_some_iff.1 h
  exact heq ▸ List.mem_append_right _ (List.mem_cons_self ..)

theorem lookup_filter {p : String → Bool} :
    (l.filter fun m => p m.1).lookup k = if p k = true then l.lookup k else none := by
  induction l with
  | nil => simp
  | cons m l ih =>
    obtain ⟨k', a⟩ := m
    by_cases hk : k = k'
    · subst hk
      cases hp : p k <;> simp [hp, ih]
    · have hne : (k == k') = false := beq_false_of_ne hk
      cases hp : p k' <;> simp [hp, ih, List.lookup_cons, hne]

theorem nodup_keys (h : KeyOrdered l) : (l.map (·.1)).Nodup :=
  List.pairwise_map.2 (h.imp fun hlt => String.ne_of_lt hlt)

theorem lookup_map {β : Type v} (f : α → β) :
    (l.map fun p => (p.1, f p.2)).lookup k = (l.lookup k).map f := by
  induction l with
  | nil => rfl
  | cons p l ih =>
    obtain ⟨k₀, v₀⟩ := p
    rw [List.map_cons, List.lookup_cons, List.lookup_cons, ih]
    cases k == k₀ <;> rfl

theorem map_insertByKey {β : Type v} (f : α → β) :
    (insertByKey k v l).map (fun p => (p.1, f p.2)) =
      insertByKey k (f v) (l.map fun p => (p.1, f p.2)) := by
  induction l with
  | nil => rfl
  | cons p rest ih =>
    obtain ⟨k₀, v₀⟩ := p
    rw [List.map_cons]
    unfold insertByKey
    split
    · rfl
    · split
      · rw [List.map_cons, ih]
      · rfl

theorem length_insertByKey_le : (insertByKey k v l).length ≤ l.length + 1 := by
  induction l with
  | nil => exact Nat.le_refl 1
  | cons p rest ih =>
    obtain ⟨k₀, v₀⟩ := p
    unfold insertByKey
    split
    · exact Nat.le_refl _
    · split
      · exact Nat.succ_le_succ ih
      · exact Nat.le_succ _

/-- A key that was not there is put beside the others. -/
theorem insertByKey_perm (h : k ∉ l.map (·.1)) : (insertByKey k v l).Perm ((k, v) :: l) := by
  induction l with
  | nil => exact .refl _
  | cons p rest ih =>
    obtain ⟨k₀, v₀⟩ := p
    obtain ⟨hne, hrest⟩ := not_or.1 (mt List.mem_cons.2 h)
    unfold insertByKey
    split
    · exact .refl _
    · rename_i hnot
      split
      · exact ((ih hrest).cons _).trans (.swap ..)
      · rename_i hnot'
        exact absurd (eq_of_not_key_lt hnot hnot') hne

end Pairs

namespace Keyed

variable {α : Type u} {β : Type v} (t : Keyed α) {k k' : String} {a : α}

theorem get?_insert_self : (t.insert k a).get? k = some a := lookup_insertByKey_self

theorem get?_insert_of_ne (h : k' ≠ k) : (t.insert k a).get? k' = t.get? k' :=
  lookup_insertByKey_of_ne h

theorem mem_of_get? {t : Keyed α} (h : t.get? k = some a) : (k, a) ∈ t.entries := mem_of_lookup h

theorem get?_erase_self : (t.erase k).get? k = none := by
  rw [get?, List.lookup_eq_none_iff]
  intro p hp
  have hne : p.1 ≠ k := by simpa using (List.mem_filter.1 hp).2
  exact bne_iff_ne.2 hne.symm

theorem get?_erase_of_ne (h : k' ≠ k) : (t.erase k).get? k' = t.get? k' :=
  (lookup_filter (p := (· != k))).trans (if_pos (bne_iff_ne.2 h))

/-- A pair of the table is found under its key, as no key stands twice. -/
theorem get?_of_mem {t : Keyed α} (h : (k, a) ∈ t.entries) : t.get? k = some a := by
  obtain ⟨before, after, heq⟩ := List.mem_iff_append.1 h
  refine List.lookup_eq_some_iff.2 ⟨before, after, heq, fun p hp => bne_iff_ne.2 fun hk => ?_⟩
  have hlt : p.1 < k := (List.pairwise_append.1 (heq ▸ t.ordered)).2.2 p hp (k, a)
    (List.mem_cons_self ..)
  exact String.lt_irrefl k (hk ▸ hlt)

theorem entries_injective {t u : Keyed α} (h : t.entries = u.entries) : t = u := by
  cases t
  cases u
  cases h
  rfl

theorem nodup_entries (t : Keyed α) : t.entries.Nodup := List.Nodup.of_map _ (nodup_keys t.ordered)

/-- **Tables in which every key has the same value are the same.** -/
theorem ext_get? {t u : Keyed α} (h : ∀ k, t.get? k = u.get? k) : t = u := by
  have hmem (p : String × α) : p ∈ t.entries ↔ p ∈ u.entries :=
    ⟨fun hp => mem_of_get? ((h p.1).symm.trans (get?_of_mem hp)),
      fun hp => mem_of_get? ((h p.1).trans (get?_of_mem hp))⟩
  -- both lists are in the order of their keys, so that they differ by no permutation
  refine entries_injective (List.Perm.eq_of_pairwise (fun p q _ _ hpq hqp => ?_) t.ordered u.ordered
    ((List.perm_ext_iff_of_nodup (nodup_entries t) (nodup_entries u)).2 hmem))
  exact absurd (String.lt_trans hpq hqp) (String.lt_irrefl _)

/-- Lists in the order of their keys are the same where every key has the same value. -/
theorem filter_eq_of_lookup {p : String → Bool} {l l' : List (String × α)} (hl : KeyOrdered l)
    (hl' : KeyOrdered l') (h : ∀ k, p k = true → l.lookup k = l'.lookup k) :
    (l.filter fun m => p m.1) = l'.filter fun m => p m.1 := by
  let kept (t : Keyed α) : Keyed α := t.filter fun k _ => p k
  have heq : kept ⟨l, hl⟩ = kept ⟨l', hl'⟩ := by
    refine ext_get? fun k => ?_
    change (l.filter fun m => p m.1).lookup k = (l'.filter fun m => p m.1).lookup k
    rw [lookup_filter, lookup_filter]
    split
    · exact h k ‹_›
    · rfl
  exact congrArg entries heq

theorem get?_insert (k' : String) :
    (t.insert k a).get? k' = if k' = k then some a else t.get? k' := by
  split
  · rename_i h
    rw [h, get?_insert_self]
  · exact get?_insert_of_ne t ‹_›

theorem get?_erase (k' : String) :
    (t.erase k).get? k' = if k' = k then none else t.get? k' := by
  split
  · rename_i h
    rw [h, get?_erase_self]
  · exact get?_erase_of_ne t ‹_›

theorem erase_insert_self : (t.insert k a).erase k = t.erase k := by
  refine ext_get? fun k' => ?_
  rw [get?_erase, get?_erase, get?_insert]
  split <;> rfl

theorem erase_insert_of_ne (h : k' ≠ k) : (t.insert k' a).erase k = (t.erase k).insert k' a := by
  refine ext_get? fun j => ?_
  rw [get?_erase, get?_insert, get?_insert, get?_erase]
  by_cases hj : j = k
  · subst hj
    rw [if_pos rfl, if_neg h.symm, if_pos rfl]
  · rw [if_neg hj, if_neg hj]

/-- The table with every value replaced. -/
def mapValues (f : α → β) : Keyed β where
  entries := t.entries.map fun p => (p.1, f p.2)
  ordered := by
    rw [KeyOrdered, List.pairwise_map]
    exact t.ordered

theorem get?_mapValues (f : α → β) : (t.mapValues f).get? k = (t.get? k).map f := lookup_map f

theorem mapValues_insert (f : α → β) :
    (t.insert k a).mapValues f = (t.mapValues f).insert k (f a) := by
  simp only [mapValues, insert, Keyed.mk.injEq]
  exact map_insertByKey f

/-- A key behind all others is put at the end. -/
theorem insertByKey_last {l : List (String × α)} (h : ∀ p ∈ l, p.1 < k) :
    insertByKey k a l = l ++ [(k, a)] := by
  induction l with
  | nil => rfl
  | cons p l ih =>
    obtain ⟨k₀, v₀⟩ := p
    have hlt : k₀ < k := h (k₀, v₀) (List.mem_cons_self ..)
    have hnot : ¬ k < k₀ := fun hlt' => String.lt_irrefl k (String.lt_trans hlt' hlt)
    rw [insertByKey, if_neg hnot, if_pos hlt,
      ih fun p hp => h p (List.mem_cons_of_mem _ hp), List.cons_append]

theorem entries_foldl_insert {l : List (String × α)} {t : Keyed α}
    (h : KeyOrdered (t.entries ++ l)) :
    (l.foldl (fun t p => t.insert p.1 p.2) t).entries = t.entries ++ l := by
  induction l generalizing t with
  | nil => exact (List.append_nil _).symm
  | cons p l ih =>
    obtain ⟨k₀, v₀⟩ := p
    have hins : (t.insert k₀ v₀).entries = t.entries ++ [(k₀, v₀)] :=
      insertByKey_last fun q hq => (List.pairwise_append.1 h).2.2 q hq _ (List.mem_cons_self ..)
    rw [List.foldl_cons, ih (by rw [hins]; simpa using h), hins, List.append_assoc]
    rfl

theorem mem_of_mem_foldl_insert {l : List (String × α)} {t : Keyed α} {p : String × α}
    (h : p ∈ (l.foldl (fun t p => t.insert p.1 p.2) t).entries) : p ∈ t.entries ∨ p ∈ l := by
  induction l generalizing t with
  | nil => exact .inl h
  | cons q l ih =>
    rcases ih h with h | h
    · rcases mem_insertByKey h with rfl | h
      · exact .inr (List.mem_cons_self ..)
      · exact .inl h
    · exact .inr (List.mem_cons_of_mem _ h)

/-- A table of a list has no other pairs than the list. -/
theorem mem_of_mem_ofList {l : List (String × α)} {p : String × α} (h : p ∈ (ofList l).entries) :
    p ∈ l :=
  (mem_of_mem_foldl_insert h).resolve_left (List.not_mem_nil)

theorem size_insert_le : (t.insert k a).size ≤ t.size + 1 := length_insertByKey_le

theorem size_foldl_insert_le {l : List (String × α)} {t : Keyed α} :
    (l.foldl (fun t p => t.insert p.1 p.2) t).size ≤ t.size + l.length := by
  induction l generalizing t with
  | nil => exact Nat.le_refl _
  | cons p l ih =>
    have hinsert : (t.insert p.1 p.2).size ≤ t.size + 1 := t.size_insert_le
    have hrest : (l.foldl (fun t p => t.insert p.1 p.2) (t.insert p.1 p.2)).size ≤
        (t.insert p.1 p.2).size + l.length := ih
    rw [List.foldl_cons, List.length_cons]
    omega

/-- A table of a list has no more keys than the list has pairs. -/
theorem size_ofList_le (l : List (String × α)) : (ofList l).size ≤ l.length :=
  Nat.le_trans size_foldl_insert_le (Nat.le_of_eq (Nat.zero_add _))

theorem get?_foldl_insert_of_notMem {l : List (String × α)} {t : Keyed α}
    (h : k ∉ l.map (·.1)) : (l.foldl (fun t p => t.insert p.1 p.2) t).get? k = t.get? k := by
  induction l generalizing t with
  | nil => rfl
  | cons p l ih =>
    obtain ⟨hne, hl⟩ := not_or.1 (mt List.mem_cons.2 h)
    exact (ih hl).trans (get?_insert_of_ne t hne)

/-- A table of a list without a repeated key has every pair of the list. -/
theorem mem_ofList {l : List (String × α)} {p : String × α} (hkeys : (l.map (·.1)).Nodup)
    (h : p ∈ l) : p ∈ (ofList l).entries := by
  refine mem_of_get? (t := ofList l) ?_
  unfold ofList
  generalize empty = t
  induction l generalizing t with
  | nil => cases h
  | cons q l ih =>
    obtain ⟨hq, hl⟩ := List.nodup_cons.1 hkeys
    rcases List.mem_cons.1 h with rfl | h
    · exact (get?_foldl_insert_of_notMem hq).trans (get?_insert_self t)
    · exact ih hl h _

/-- **The table of pairs that stand in key order has just these pairs.** -/
theorem ofList_entries {l : List (String × α)} (h : KeyOrdered l) : (ofList l).entries = l :=
  entries_foldl_insert (t := empty) h

theorem get?_foldl_insert (l : List (String × α)) (t : Keyed α) :
    (l.foldl (fun t p => t.insert p.1 p.2) t).get? k = (l.reverse.lookup k).or (t.get? k) := by
  induction l generalizing t with
  | nil => rfl
  | cons p l ih =>
    rw [List.foldl_cons, ih, get?_insert, List.reverse_cons, List.lookup_append, Option.or_assoc]
    congr 1
    by_cases hk : k = p.1
    · subst hk
      rw [if_pos rfl, List.lookup_cons_self]
      rfl
    · rw [if_neg hk, List.lookup_cons, beq_false_of_ne hk]
      rfl

/-- Of the pairs of one key the last one counts. -/
theorem get?_ofList (l : List (String × α)) : (ofList l).get? k = l.reverse.lookup k :=
  (get?_foldl_insert l empty).trans (Option.or_none ..)

/-- A key is taken out of the table of a list as out of the list. -/
theorem erase_ofList (l : List (String × α)) :
    (ofList l).erase k = ofList (l.filter fun p => p.1 != k) := by
  refine ext_get? fun k' => ?_
  rw [get?_ofList, ← List.filter_reverse, lookup_filter (p := (· != k)), get?_erase, get?_ofList]
  by_cases hk : k' = k <;> simp [hk]

/-- **The table of a list has as many keys as the list has pairs just if no key stands twice.** -/
theorem size_ofList_eq_iff (l : List (String × α)) :
    (ofList l).size = l.length ↔ (l.map (·.1)).Nodup := by
  constructor
  · intro hsize
    have hsub : (ofList l).entries.Subperm l :=
      List.subperm_of_subset (nodup_entries _) fun p hp => mem_of_mem_ofList hp
    have hperm : (ofList l).entries.Perm l := hsub.perm_of_length_le (Nat.le_of_eq hsize.symm)
    exact (hperm.map _).nodup_iff.1 (nodup_keys (ofList l).ordered)
  · intro hkeys
    have hsub : l.Subperm (ofList l).entries :=
      List.subperm_of_subset (List.Nodup.of_map _ hkeys) fun p hp => mem_ofList hkeys hp
    exact Nat.le_antisymm (size_ofList_le l) hsub.length_le

/-- A table without one key has as many keys as the list has pairs just if no key stands twice in
the list and that one does not stand there. -/
theorem size_erase_ofList_eq_iff (l : List (String × α)) :
    ((ofList l).erase k).size = l.length ↔ (l.map (·.1)).Nodup ∧ k ∉ l.map (·.1) := by
  rw [erase_ofList]
  have hle : (l.filter fun p => p.1 != k).length ≤ l.length := List.length_filter_le ..
  have htable := size_ofList_le (l.filter fun p => p.1 != k)
  constructor
  · intro hsize
    have hlen : (l.filter fun p => p.1 != k).length = l.length := by omega
    have heq : (l.filter fun p => p.1 != k) = l := List.filter_sublist.eq_of_length hlen
    have hnotMem : k ∉ l.map (·.1) := fun hmem => by
      obtain ⟨p, hp, hk⟩ := List.mem_map.1 hmem
      rw [← heq] at hp
      exact bne_iff_ne.1 (List.mem_filter.1 hp).2 hk
    refine ⟨(size_ofList_eq_iff l).1 ?_, hnotMem⟩
    rwa [heq] at hsize
  · rintro ⟨hkeys, hnotMem⟩
    have heq : (l.filter fun p => p.1 != k) = l := List.filter_eq_self.2 fun p hp =>
      bne_iff_ne.2 fun hk => hnotMem (hk ▸ List.mem_map.2 ⟨p, hp, rfl⟩)
    rw [heq, size_ofList_eq_iff]
    exact hkeys
end Keyed

end Conductor

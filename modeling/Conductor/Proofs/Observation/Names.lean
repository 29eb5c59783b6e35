import Conductor.Proofs.Keyed
import Conductor.Proofs.Number.Digits
import Conductor.Proofs.Observation.Leaves

/-!
# Names of leaves

The name of a leaf shows the steps that lead to it: a key behind a full stop, an index in brackets.
A key that has one of these signs in it, or nothing at all, may be taken for other steps, so that
two leaves have one name. Where no key is of this kind, every leaf has a name of its own.

* `Json.length_leaves` : as many leaves are listed as there are;
* `Json.PlainKey`, `Json.Plain` : a key, or every key of a value, can be told from a step;
* `Json.Extends` : a name goes on with a step where a path ends;
* `Json.extends_of_mem_leavesFrom` : the names of leaves go on where their path ends;
* `Json.nodup_leafNames` : **no two leaves of a value with plain keys have one name.**
-/

namespace Conductor

namespace Json

/-! ### The number of leaves -/

mutual

theorem length_leavesFrom : (j : Json) → (path : String) → (leavesFrom path j).length = j.leafCount
  | .null, _ => rfl
  | .bool _, _ => rfl
  | .number _, _ => rfl
  | .string _, _ => rfl
  | .array [], _ => rfl
  | .object [], _ => rfl
  | .array (x :: xs), path => by
    rw [leavesFrom, leafCount, length_itemLeaves (x :: xs) path 0]
  | .object (m :: ms), path => by
    rw [leavesFrom, leafCount, length_memberLeaves (m :: ms) path]

theorem length_memberLeaves : (ms : List (String × Json)) → (path : String) →
    (memberLeaves path ms).length = memberLeafCount ms
  | [], _ => rfl
  | (k, x) :: ms, path => by
    rw [memberLeaves, memberLeafCount, List.length_append, length_leavesFrom x,
      length_memberLeaves ms path]

theorem length_itemLeaves : (xs : List Json) → (path : String) → (index : Nat) →
    (itemLeaves path index xs).length = itemLeafCount xs
  | [], _, _ => rfl
  | x :: xs, path, index => by
    rw [itemLeaves, itemLeafCount, List.length_append, length_leavesFrom x,
      length_itemLeaves xs path (index + 1)]

end

/-- As many leaves are listed as there are. -/
theorem length_leaves (j : Json) : j.leaves.length = j.leafCount := length_leavesFrom j ""

/-! ### Plain keys -/

/-- The sign that starts a step in a name. -/
def opensStep (c : Char) : Bool := c == '.' || c == '['

/-- The key can be told from a step. -/
def PlainKey (k : String) : Prop := k ≠ "" ∧ ∀ c ∈ k.toList, opensStep c = false

instance (k : String) : Decidable (PlainKey k) :=
  @instDecidableAnd _ _ inferInstance (List.decidableBAll _ k.toList)

mutual

/-- Every key in the value is plain. -/
def Plain : Json → Prop
  | .array xs => PlainItems xs
  | .object ms => PlainMembers ms
  | _ => True

/-- `Plain` of every item. -/
def PlainItems : List Json → Prop
  | [] => True
  | x :: xs => Plain x ∧ PlainItems xs

/-- Every key is plain, and so are the keys inside the members. -/
def PlainMembers : List (String × Json) → Prop
  | [] => True
  | (k, x) :: ms => PlainKey k ∧ Plain x ∧ PlainMembers ms

end

theorem plainItems_iff {xs : List Json} : PlainItems xs ↔ ∀ x ∈ xs, x.Plain := by
  induction xs with
  | nil => simp [PlainItems]
  | cons x xs ih => simp [PlainItems, ih]

theorem plainMembers_iff {ms : List (String × Json)} :
    PlainMembers ms ↔ ∀ m ∈ ms, PlainKey m.1 ∧ m.2.Plain := by
  induction ms with
  | nil => simp [PlainMembers]
  | cons m ms ih => simp [PlainMembers, ih, and_assoc]

/-! ### Names behind a path -/

/-- The name is the path, or goes on with a step where the path ends. -/
def Extends (path name : String) : Prop :=
  ∃ rest, name.toList = path.toList ++ rest ∧ ∀ c ∈ rest.head?, opensStep c = true

variable {path key key' name : String} {i i' : Nat}

theorem memberPath_of_ne (h : path ≠ "") : memberPath path key = path ++ "." ++ key := by
  rw [memberPath, if_neg (by simpa using h)]

theorem toList_memberPath (h : path ≠ "") :
    (memberPath path key).toList = path.toList ++ '.' :: key.toList := by
  rw [memberPath_of_ne h, String.toList_append, String.toList_append, List.append_assoc]
  rfl

theorem toList_itemPath :
    (itemPath path i).toList = path.toList ++ '[' :: (Nat.toDigits 10 i ++ [']']) := by
  have hindex : (toString i).toList = Nat.toDigits 10 i := Nat.toList_repr
  rw [itemPath, String.toList_append, String.toList_append, String.toList_append, hindex,
    List.append_assoc, List.append_assoc]
  rfl

theorem memberPath_ne_empty (h : PlainKey key) : memberPath path key ≠ "" := by
  by_cases hpath : path = ""
  · rw [hpath]
    exact h.1
  · intro hempty
    have hchars := congrArg String.toList hempty
    rw [toList_memberPath hpath] at hchars
    simp at hchars

theorem itemPath_ne_empty : itemPath path i ≠ "" := by
  intro hempty
  have hchars := congrArg String.toList hempty
  rw [toList_itemPath] at hchars
  simp at hchars

theorem Extends.refl (path : String) : Extends path path := ⟨[], by simp, by simp⟩

theorem Extends.of_member (hpath : path ≠ "") (h : Extends (memberPath path key) name) :
    Extends path name := by
  obtain ⟨rest, hname, -⟩ := h
  rw [toList_memberPath hpath, List.append_assoc] at hname
  exact ⟨_, hname, by simp [opensStep]⟩

theorem Extends.of_item (h : Extends (itemPath path i) name) : Extends path name := by
  obtain ⟨rest, hname, -⟩ := h
  rw [toList_itemPath, List.append_assoc] at hname
  exact ⟨_, hname, by simp [opensStep]⟩

/-- A name tells the plain key that comes first in it. -/
theorem Extends.key_unique (hkey : PlainKey key) (hkey' : PlainKey key')
    (h : Extends (memberPath path key) name) (h' : Extends (memberPath path key') name) :
    key = key' := by
  obtain ⟨rest, hname, hrest⟩ := h
  obtain ⟨rest', hname', hrest'⟩ := h'
  have hkeys : key.toList ++ rest = key'.toList ++ rest' := by
    have heq := hname.symm.trans hname'
    by_cases hpath : path = ""
    · subst hpath
      exact heq
    · rw [toList_memberPath hpath, toList_memberPath hpath, List.append_assoc, List.append_assoc,
        List.append_cancel_left_eq] at heq
      exact (List.cons.inj heq).2
  refine String.toList_injective
    (run_unique (p := fun c => !opensStep c) (fun c hc => ?_) (fun c hc => ?_) (fun c hc => ?_)
      (fun c hc => ?_) hkeys)
  · rw [hkey.2 c hc, Bool.not_false]
  · rw [hkey'.2 c hc, Bool.not_false]
  · rw [hrest c hc, Bool.not_true]
  · rw [hrest' c hc, Bool.not_true]

/-- A name tells the index that comes first in it. -/
theorem Extends.index_unique (h : Extends (itemPath path i) name)
    (h' : Extends (itemPath path i') name) : i = i' := by
  obtain ⟨rest, hname, -⟩ := h
  obtain ⟨rest', hname', -⟩ := h'
  have heq := hname.symm.trans hname'
  rw [toList_itemPath, toList_itemPath, List.append_assoc, List.append_assoc,
    List.append_cancel_left_eq, List.cons_append, List.cons_append, List.append_assoc,
    List.append_assoc] at heq
  have hdigits : Nat.toDigits 10 i = Nat.toDigits 10 i' :=
    run_unique (p := Decimal.isDigit) (fun _ => Decimal.isDigit_of_mem_toDigits)
      (fun _ => Decimal.isDigit_of_mem_toDigits) (by simp [Decimal.isDigit])
      (by simp [Decimal.isDigit]) (List.cons.inj heq).2
  rw [← Decimal.valueOf_toDigits i, hdigits, Decimal.valueOf_toDigits]

theorem extends_pathText {j y : Json} {steps : List Step} (h : Leads j steps y)
    (hplain : j.Plain) (hpath : path ≠ "") : Extends path (pathText path steps) := by
  induction h generalizing path with
  | here j => exact .refl path
  | member hmember _ ih =>
    obtain ⟨hkey, hvalue⟩ := plainMembers_iff.1 hplain _ hmember
    exact .of_member hpath (ih hvalue (memberPath_ne_empty hkey))
  | item hitem _ ih =>
    exact .of_item (ih (plainItems_iff.1 hplain _ (List.mem_of_getElem? hitem)) itemPath_ne_empty)

/-- The names of leaves go on where their path ends. -/
theorem extends_of_leafFrom {j : Json} {f : String × String} (hplain : j.Plain) (hpath : path ≠ "")
    (h : LeafFrom path j f) : Extends path f.1 := by
  obtain ⟨steps, y, hsteps, -, rfl⟩ := h
  have hext : Extends path (pathText path steps) := extends_pathText hsteps hplain hpath
  have hne : pathText path steps ≠ "" := fun hempty => by
    obtain ⟨rest, hname, -⟩ := hext
    rw [hempty] at hname
    exact hpath (String.toList_injective (List.append_eq_nil_iff.1 hname.symm).1)
  change Extends path (leafName _)
  rwa [leafName, if_neg (by simpa using hne)]

/-! ### Names that differ -/

/-- The names of some leaves. -/
def names (fs : List (String × String)) : List String := fs.map (·.1)

mutual

/-- **No two leaves of a value with plain keys have one name.** -/
theorem nodup_leavesFrom : (j : Json) → (path : String) → j.Ordered → j.Plain →
    (names (leavesFrom path j)).Nodup
  | .null, _, _, _ => List.nodup_singleton _
  | .bool _, _, _, _ => List.nodup_singleton _
  | .number _, _, _, _ => List.nodup_singleton _
  | .string _, _, _, _ => List.nodup_singleton _
  | .array [], _, _, _ => List.nodup_singleton _
  | .object [], _, _, _ => List.nodup_singleton _
  | .array (x :: xs), path, hord, hplain => by
    rw [leavesFrom]
    exact nodup_itemLeaves (x :: xs) path 0 hord hplain
  | .object (m :: ms), path, hord, hplain => by
    rw [leavesFrom]
    exact nodup_memberLeaves (m :: ms) path hord.1 hord.2 hplain

theorem nodup_memberLeaves : (ms : List (String × Json)) → (path : String) → KeyOrdered ms →
    OrderedMembers ms → PlainMembers ms → (names (memberLeaves path ms)).Nodup
  | [], _, _, _, _ => List.nodup_nil
  | (k, x) :: ms, path, hkeys, ⟨hord, hords⟩, ⟨hkey, hplain, hplains⟩ => by
    obtain ⟨hfirst, hrest⟩ := List.pairwise_cons.1 hkeys
    rw [memberLeaves, names, List.map_append]
    refine List.nodup_append.2 ⟨nodup_leavesFrom x _ hord hplain,
      nodup_memberLeaves ms path hrest hords hplains, fun a ha b hb hab => ?_⟩
    subst hab
    -- a name both here and behind would tell two keys
    obtain ⟨f, hf, rfl⟩ := List.mem_map.1 ha
    obtain ⟨g, hg, hname⟩ := List.mem_map.1 hb
    obtain ⟨m, hm, hg⟩ := (mem_memberLeaves ms path).1 hg
    obtain ⟨hkey', hplain'⟩ := plainMembers_iff.1 hplains m hm
    have hf := extends_of_leafFrom hplain (memberPath_ne_empty hkey) ((mem_leavesFrom x _).1 hf)
    have hg := extends_of_leafFrom hplain' (memberPath_ne_empty hkey') hg
    rw [hname] at hg
    exact String.ne_of_lt (hfirst m hm) (hf.key_unique hkey hkey' hg)

theorem nodup_itemLeaves : (xs : List Json) → (path : String) → (index : Nat) →
    OrderedItems xs → PlainItems xs → (names (itemLeaves path index xs)).Nodup
  | [], _, _, _, _ => List.nodup_nil
  | x :: xs, path, index, ⟨hord, hords⟩, ⟨hplain, hplains⟩ => by
    rw [itemLeaves, names, List.map_append]
    refine List.nodup_append.2 ⟨nodup_leavesFrom x _ hord hplain,
      nodup_itemLeaves xs path (index + 1) hords hplains, fun a ha b hb hab => ?_⟩
    subst hab
    obtain ⟨f, hf, rfl⟩ := List.mem_map.1 ha
    obtain ⟨g, hg, hname⟩ := List.mem_map.1 hb
    obtain ⟨i, z, hz, hg⟩ := (mem_itemLeaves xs path (index + 1)).1 hg
    have hplain' := plainItems_iff.1 hplains z (List.mem_of_getElem? hz)
    have hf := extends_of_leafFrom hplain itemPath_ne_empty ((mem_leavesFrom x _).1 hf)
    have hg := extends_of_leafFrom hplain' itemPath_ne_empty hg
    rw [hname] at hg
    have hindex := hf.index_unique hg
    omega

end

/-- **No two leaves of a value with plain keys have one name.** -/
theorem nodup_leafNames {j : Json} (hord : j.Ordered) (hplain : j.Plain) :
    (names j.leaves).Nodup := nodup_leavesFrom j "" hord hplain

end Json

end Conductor

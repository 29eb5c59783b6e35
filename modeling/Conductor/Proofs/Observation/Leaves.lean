import Conductor.Observation.Leaves

/-!
# Where a leaf stands

The leaves of a value are listed by recursion. What is listed is said here without it: a leaf is
what a path of steps into objects and arrays leads to, if it is itself no object or array with
anything in it; its name shows the path.

* `Json.Leads` : a path leads from a value to a value inside it;
* `Json.LeafFrom` : a name and a text are those of a leaf;
* `Json.mem_leaves` : **the leaves that are listed are all there are, and nothing else is listed.**
-/

namespace Conductor

namespace Json

/-- A step into a value. -/
inductive Step where
  | member (key : String)
  | item (index : Nat)

/-- The path leads from a value to a value inside it. -/
inductive Leads : Json → List Step → Json → Prop
  | here (j : Json) : Leads j [] j
  | member {ms : List (String × Json)} {m : String × Json} {steps : List Step} {y : Json}
      (hmember : m ∈ ms) (hsteps : Leads m.2 steps y) :
      Leads (.object ms) (.member m.1 :: steps) y
  | item {xs : List Json} {i : Nat} {x : Json} {steps : List Step} {y : Json}
      (hitem : xs[i]? = some x) (hsteps : Leads x steps y) :
      Leads (.array xs) (.item i :: steps) y

/-- The path that is shown for some steps behind another path. -/
def pathText (path : String) : List Step → String
  | [] => path
  | .member k :: steps => pathText (memberPath path k) steps
  | .item i :: steps => pathText (itemPath path i) steps

/-- The value has nothing in it. -/
def isLeaf : Json → Bool
  | .object ms => ms.isEmpty
  | .array xs => xs.isEmpty
  | _ => true

/-- The name and the text are those of a leaf of a value that is reached by a path. -/
def LeafFrom (path : String) (j : Json) (f : String × String) : Prop :=
  ∃ steps y, Leads j steps y ∧ y.isLeaf = true ∧
    f = (leafName (pathText path steps), y.leafText)

/-- The name and the text are those of a leaf. -/
def Leaf (j : Json) (f : String × String) : Prop := LeafFrom "" j f

variable {path : String} {f : String × String}

/-- A leaf is its own only leaf. -/
theorem leafFrom_leaf {j : Json} (h : j.isLeaf = true) :
    LeafFrom path j f ↔ f = (leafName path, j.leafText) := by
  constructor
  · rintro ⟨steps, y, hsteps, -, rfl⟩
    cases hsteps with
    | here => rfl
    | member hmember _ => rw [List.isEmpty_iff.1 h] at hmember; cases hmember
    | item hitem _ => rw [List.isEmpty_iff.1 h] at hitem; cases hitem
  · rintro rfl
    exact ⟨[], j, .here j, h, rfl⟩

theorem leafFrom_object {m : String × Json} {ms : List (String × Json)} :
    LeafFrom path (.object (m :: ms)) f ↔
      ∃ p ∈ m :: ms, LeafFrom (memberPath path p.1) p.2 f := by
  constructor
  · rintro ⟨steps, y, hsteps, hy, rfl⟩
    cases hsteps with
    | here => cases hy
    | member hmember hsteps => exact ⟨_, hmember, _, y, hsteps, hy, rfl⟩
  · rintro ⟨p, hp, steps, y, hsteps, hy, rfl⟩
    exact ⟨.member p.1 :: steps, y, .member hp hsteps, hy, rfl⟩

theorem leafFrom_array {x : Json} {xs : List Json} :
    LeafFrom path (.array (x :: xs)) f ↔
      ∃ i z, (x :: xs)[i]? = some z ∧ LeafFrom (itemPath path i) z f := by
  constructor
  · rintro ⟨steps, y, hsteps, hy, rfl⟩
    cases hsteps with
    | here => cases hy
    | item hitem hsteps => exact ⟨_, _, hitem, _, y, hsteps, hy, rfl⟩
  · rintro ⟨i, z, hz, steps, y, hsteps, hy, rfl⟩
    exact ⟨.item i :: steps, y, .item hz hsteps, hy, rfl⟩

theorem mem_leavesFrom_leaf {j : Json} (h : j.isLeaf = true) :
    f ∈ leavesFrom path j ↔ LeafFrom path j f := by
  have hleaves : leavesFrom path j = [(leafName path, j.leafText)] := by
    cases j with
    | object ms =>
      obtain rfl := List.isEmpty_iff.1 h
      rw [leavesFrom] <;> nofun
    | array xs =>
      obtain rfl := List.isEmpty_iff.1 h
      rw [leavesFrom] <;> nofun
    | _ => rw [leavesFrom] <;> nofun
  rw [leafFrom_leaf h, hleaves, List.mem_singleton]

theorem exists_getElem?_cons {α : Type} {x : α} {xs : List α} {P : Nat → α → Prop} :
    (∃ i z, (x :: xs)[i]? = some z ∧ P i z) ↔ P 0 x ∨ ∃ i z, xs[i]? = some z ∧ P (i + 1) z := by
  constructor
  · rintro ⟨i, z, hz, h⟩
    cases i with
    | zero =>
      obtain rfl := Option.some.inj hz
      exact .inl h
    | succ i => exact .inr ⟨i, z, hz, h⟩
  · rintro (h | ⟨i, z, hz, h⟩)
    · exact ⟨0, x, rfl, h⟩
    · exact ⟨i + 1, z, hz, h⟩

mutual

/-- **The leaves behind a path are listed, and nothing else.** -/
theorem mem_leavesFrom : (j : Json) → (path : String) →
    (f ∈ leavesFrom path j ↔ LeafFrom path j f)
  | .null, _ => mem_leavesFrom_leaf rfl
  | .bool _, _ => mem_leavesFrom_leaf rfl
  | .number _, _ => mem_leavesFrom_leaf rfl
  | .string _, _ => mem_leavesFrom_leaf rfl
  | .array [], _ => mem_leavesFrom_leaf rfl
  | .object [], _ => mem_leavesFrom_leaf rfl
  | .array (x :: xs), path => by
    rw [leavesFrom, leafFrom_array, mem_itemLeaves (x :: xs) path 0]
    simp only [Nat.zero_add]
  | .object (m :: ms), path => by
    rw [leavesFrom, leafFrom_object, mem_memberLeaves (m :: ms) path]

theorem mem_memberLeaves : (ms : List (String × Json)) → (path : String) →
    (f ∈ memberLeaves path ms ↔ ∃ p ∈ ms, LeafFrom (memberPath path p.1) p.2 f)
  | [], path => by simp [memberLeaves]
  | (k, x) :: ms, path => by
    rw [memberLeaves, List.mem_append, mem_leavesFrom x, mem_memberLeaves ms path]
    simp only [List.mem_cons, exists_eq_or_imp]

theorem mem_itemLeaves : (xs : List Json) → (path : String) → (index : Nat) →
    (f ∈ itemLeaves path index xs ↔
      ∃ i z, xs[i]? = some z ∧ LeafFrom (itemPath path (index + i)) z f)
  | [], path, index => by simp [itemLeaves]
  | x :: xs, path, index => by
    rw [itemLeaves, List.mem_append, mem_leavesFrom x, mem_itemLeaves xs path (index + 1),
      exists_getElem?_cons]
    simp only [Nat.add_zero, Nat.add_assoc, Nat.add_comm 1]

end

/-- **What is listed are the leaves of the value.** -/
theorem mem_leaves {j : Json} : f ∈ j.leaves ↔ j.Leaf f := mem_leavesFrom j ""

end Json

end Conductor

import Conductor.Json.Document
import Conductor.Proofs.Keyed

/-!
# The order of members

A text may hold the members of an object in any order. The value that is read of it has them in the
order of their keys, and so has every value inside it.

* `Json.sorted` : a value with the members of all its objects in the order of their keys;
* `Json.Document.value_ofJson` : **what is read of the document of a value is the sorted value;**
* `Json.Document.value_ordered` : **whatever is read has its members in order;**
* `Json.sorted_of_ordered` : a value whose members are in order is its own sorted form.
-/

namespace Conductor

namespace Json

mutual

/-- The value with the members of every object in the order of their keys; the last member of a key
counts. -/
def sorted : Json → Json
  | .array xs => .array (sortedItems xs)
  | .object ms => .ofMembers (sortedMembers ms)
  | j => j

/-- The sorted items. -/
def sortedItems : List Json → List Json
  | [] => []
  | x :: xs => sorted x :: sortedItems xs

/-- The members with sorted values, in the order in which they stand. -/
def sortedMembers : List (String × Json) → List (String × Json)
  | [] => []
  | (k, x) :: ms => (k, sorted x) :: sortedMembers ms

end

/-! ### Values that are read -/

mutual

/-- **The document of a value has the sorted value.** -/
theorem Document.value_ofJson : (j : Json) → (Document.ofJson j).value = .ok j.sorted
  | .null => rfl
  | .bool _ => rfl
  | .number _ => rfl
  | .string _ => rfl
  | .array xs => by
    rw [Document.ofJson, Document.value, Items.values_ofJson xs, sorted]
    rfl
  | .object ms => by
    rw [Document.ofJson, Document.value, Members.values_ofJson ms, sorted]
    rfl

theorem Items.values_ofJson : (xs : List Json) → (Items.ofJson xs).values = .ok (sortedItems xs)
  | [] => rfl
  | x :: xs => by
    rw [Items.ofJson, Items.values, Document.value_ofJson x, Items.values_ofJson xs]
    rfl

theorem Members.values_ofJson : (ms : List (String × Json)) →
    (Members.ofJson ms).values = .ok (sortedMembers ms)
  | [] => rfl
  | (k, x) :: ms => by
    rw [Members.ofJson, Members.values, Document.value_ofJson x, Members.values_ofJson ms]
    rfl

end

theorem orderedMembers_iff {ms : List (String × Json)} :
    OrderedMembers ms ↔ ∀ m ∈ ms, m.2.Ordered := by
  induction ms with
  | nil => simp [OrderedMembers]
  | cons m ms ih => simp [OrderedMembers, ih]

theorem orderedItems_iff {xs : List Json} : OrderedItems xs ↔ ∀ x ∈ xs, x.Ordered := by
  induction xs with
  | nil => simp [OrderedItems]
  | cons x xs ih => simp [OrderedItems, ih]

/-- Members with ordered values make an object in order. -/
theorem ordered_ofMembers {ms : List (String × Json)} (h : OrderedMembers ms) :
    (Json.ofMembers ms).Ordered := by
  refine ⟨(Keyed.ofList ms).ordered, orderedMembers_iff.2 fun m hm => ?_⟩
  exact orderedMembers_iff.1 h m (Keyed.mem_of_mem_ofList hm)

section Read

variable {ε α β : Type}

/-- A computation in two parts that has succeeded. -/
theorem ok_of_bind {x : Except ε α} {f : α → Except ε β} {b : β} (h : x >>= f = .ok b) :
    ∃ a, x = .ok a ∧ f a = .ok b := by
  cases x with
  | error e => cases h
  | ok a => exact ⟨a, rfl, h⟩

end Read

mutual

/-- **Whatever is read has its members in order.** -/
theorem Document.value_ordered : (d : Document) → {j : Json} → d.value = .ok j → j.Ordered
  | .scalar v _, _, h => by
    obtain rfl := Except.ok.inj h
    cases v <;> trivial
  | .list _ items, _, h => by
    rw [Document.value] at h
    obtain ⟨xs, hxs, h⟩ := ok_of_bind h
    obtain rfl := Except.ok.inj h
    exact Items.values_ordered items hxs
  | .object _ members, _, h => by
    rw [Document.value] at h
    obtain ⟨ms, hms, h⟩ := ok_of_bind h
    obtain rfl := Except.ok.inj h
    exact ordered_ofMembers (Members.values_ordered members hms)
  | .broken _, _, h => nomatch h

theorem Items.values_ordered : (d : Items) → {xs : List Json} → d.values = .ok xs →
    OrderedItems xs
  | .close _, _, h => by
    obtain rfl := Except.ok.inj h
    trivial
  | .cut _, _, h => nomatch h
  | .cons item _ rest, _, h => by
    rw [Items.values] at h
    obtain ⟨x, hx, h⟩ := ok_of_bind h
    obtain ⟨xs, hxs, h⟩ := ok_of_bind h
    obtain rfl := Except.ok.inj h
    exact ⟨Document.value_ordered item hx, Items.values_ordered rest hxs⟩

theorem Members.values_ordered : (d : Members) → {ms : List (String × Json)} →
    d.values = .ok ms → OrderedMembers ms
  | .close _, _, h => by
    obtain rfl := Except.ok.inj h
    trivial
  | .cut _, _, h => nomatch h
  | .cons _ _ value _ rest, _, h => by
    rw [Members.values] at h
    obtain ⟨x, hx, h⟩ := ok_of_bind h
    obtain ⟨ms, hms, h⟩ := ok_of_bind h
    obtain rfl := Except.ok.inj h
    exact ⟨Document.value_ordered value hx, Members.values_ordered rest hms⟩

end

/-! ### Values in order -/

mutual

/-- A value whose members are in order is its own sorted form. -/
theorem sorted_of_ordered : (j : Json) → j.Ordered → j.sorted = j
  | .null, _ => rfl
  | .bool _, _ => rfl
  | .number _, _ => rfl
  | .string _, _ => rfl
  | .array xs, h => by rw [sorted, sortedItems_of_ordered xs h]
  | .object ms, ⟨hkeys, h⟩ => by
    rw [sorted, sortedMembers_of_ordered ms h]
    exact congrArg Json.object (Keyed.ofList_entries hkeys)

theorem sortedItems_of_ordered : (xs : List Json) → OrderedItems xs → sortedItems xs = xs
  | [], _ => rfl
  | x :: xs, ⟨hx, hxs⟩ => by
    rw [sortedItems, sorted_of_ordered x hx, sortedItems_of_ordered xs hxs]

theorem sortedMembers_of_ordered : (ms : List (String × Json)) → OrderedMembers ms →
    sortedMembers ms = ms
  | [], _ => rfl
  | (k, x) :: ms, ⟨hx, hms⟩ => by
    rw [sortedMembers, sorted_of_ordered x hx, sortedMembers_of_ordered ms hms]

end

end Json

end Conductor

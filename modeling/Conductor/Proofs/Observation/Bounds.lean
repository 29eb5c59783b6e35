import Conductor.Observation.Normalizer
import Conductor.Proofs.Keyed
import Conductor.Proofs.Observation.Leaves

/-!
# The size of an observation

An observation has so many facts, and each of its texts so many characters, as the limits say. What
is cut is marked as cut, and what is left out is counted.

* `Shortened` : a text, or the start of one that is longer with the mark behind it;
* `Normalizer.IsFact` : a leaf of the output, or what is known of a failure;
* `Observation.Bounded` : what the limits say of an observation;
* `Normalizer.observe_bounded` : **every observation is bounded by the limits.**
-/

namespace Conductor

/-! ### Texts that are cut -/

/-- The text itself if it has no more than so many characters; otherwise just so many of them, with
the mark behind them. -/
inductive Shortened (max : Nat) (text : String) : String → Prop
  | whole (h : text.length ≤ max) : Shortened max text text
  | cut {head rest : String} (hsplit : text = head ++ rest) (hlength : head.length = max)
      (hrest : rest ≠ "") : Shortened max text (head ++ truncationMark)

namespace Normalizer

variable {limits : ObservationLimits} {fallbacks : Keyed String} {tool : String} {raw : Json}
  {r : Result} {k v : String}

/-- **The cut is between characters.** -/
theorem shortened_cap (n : Normalizer) (hn : n.limiter = Text.cut) (text : String) (max : Nat) :
    Shortened max text (n.cap text max) := by
  rw [cap, hn, Text.cut, Text.Cut.marked]
  split
  · next hlong =>
    have hsplit : text = String.ofList (text.toList.take max) ++
        String.ofList (text.toList.drop max) := by
      rw [← String.ofList_append, List.take_append_drop, String.ofList_toList]
    refine .cut hsplit ?_ ?_
    · rw [String.length_ofList, List.length_take, Nat.min_eq_left (Nat.le_of_lt hlong)]
    · intro hempty
      have hdrop := congrArg String.length hempty
      rw [String.length_ofList, List.length_drop] at hdrop
      exact absurd hdrop (Nat.sub_ne_zero_of_lt hlong)
  · next hshort => exact .whole (String.length_toList ▸ Nat.le_of_not_lt hshort)

/-! ### Facts -/

/-- A fact about a result: a leaf of the output, or what is known of a failure. -/
inductive IsFact (raw : Json) (r : Result) : String × String → Prop
  | leaf {f : String × String} (hshown : r.ok = true ∨ raw.isNull = false) (hleaf : raw.Leaf f) :
      IsFact raw r f
  | failure {f : String × String} (hfailed : r.ok = false) (hfact : f ∈ failureFacts r) :
      IsFact raw r f

/-- The facts are the leaves of the output, and what is known of a failure. -/
theorem isFact_of_mem {f : String × String} (h : f ∈ allFacts raw r) : IsFact raw r f := by
  rcases List.mem_append.1 h with h | h
  · split at h
    · next hshown => exact .leaf (by simpa using hshown) (Json.mem_leaves.1 h)
    · cases h
  · split at h
    · cases h
    · next hfailed => exact .failure (Bool.eq_false_iff.2 hfailed) h

/-- The first facts, each one cut. -/
def firstFacts (n : Normalizer) (raw : Json) (r : Result) (count : Nat) : Keyed String :=
  .ofList (((allFacts raw r).take count).map fun f => (f.1, n.cap f.2 n.limits.factChars))

theorem facts_of_le (n : Normalizer) (h : (allFacts raw r).length ≤ max 1 n.limits.maxFacts) :
    n.facts raw r = n.firstFacts raw r (allFacts raw r).length := by
  have hmost : ¬ max n.limits.maxFacts 1 < (allFacts raw r).length := by omega
  rw [facts]
  simp only [if_neg hmost, Nat.lt_irrefl, if_false]
  rfl

/-- One place is kept for the number of the facts that are left out. -/
theorem facts_of_lt (n : Normalizer) (h : max 1 n.limits.maxFacts < (allFacts raw r).length) :
    n.facts raw r = (n.firstFacts raw r (max 1 n.limits.maxFacts - 1)).insert omittedKey
      (toString ((allFacts raw r).length - (max 1 n.limits.maxFacts - 1)) ++
        " more fact(s) omitted") := by
  have hmax : max n.limits.maxFacts 1 = max 1 n.limits.maxFacts := Nat.max_comm ..
  have hkeep : max 1 n.limits.maxFacts - 1 < (allFacts raw r).length := by omega
  rw [facts]
  simp only [hmax, if_pos h, if_pos hkeep]
  rfl

theorem size_firstFacts_le (n : Normalizer) (count : Nat) :
    (n.firstFacts raw r count).size ≤ count := by
  refine Nat.le_trans (Keyed.size_ofList_le _) ?_
  rw [List.length_map, List.length_take]
  exact Nat.min_le_left ..

/-- A fact that is shown is one of the facts, cut. -/
theorem of_get?_firstFacts (n : Normalizer) (hn : n.limiter = Text.cut) {count : Nat}
    (h : (n.firstFacts raw r count).get? k = some v) :
    ∃ text, IsFact raw r (k, text) ∧ Shortened n.limits.factChars text v := by
  obtain ⟨f, hf, heq⟩ := List.mem_map.1 (Keyed.mem_of_mem_ofList (Keyed.mem_of_get? h))
  obtain ⟨rfl, rfl⟩ := Prod.mk.inj heq
  exact ⟨f.2, isFact_of_mem (List.mem_of_mem_take hf), shortened_cap n hn ..⟩

end Normalizer

/-- What the limits say of an observation of a result. -/
structure Observation.Bounded (limits : ObservationLimits) (tool : String) (raw : Json)
    (r : Result) (o : Observation) : Prop where
  /-- There are not too many facts. -/
  size : o.facts.size ≤ max 1 limits.maxFacts
  /-- A fact has the text of a leaf, or its start. -/
  facts : ∀ k v, o.facts.get? k = some v → k ≠ omittedKey →
    ∃ text, Normalizer.IsFact raw r (k, text) ∧ Shortened limits.factChars text v
  /-- What is left out is counted. -/
  omitted : max 1 limits.maxFacts < (Normalizer.allFacts raw r).length →
    o.facts.get? omittedKey = some (toString ((Normalizer.allFacts raw r).length -
      (max 1 limits.maxFacts - 1)) ++ " more fact(s) omitted")
  /-- The summary is whole, or its start. -/
  summary : Shortened limits.summaryChars (Normalizer.summary tool raw r) o.summary

namespace Normalizer

/-- **Every observation is bounded by the limits.** -/
theorem observe_bounded (limits : ObservationLimits) (fallbacks : Keyed String) (tool : String)
    (raw : Json) (r : Result) :
    ((plain limits fallbacks).observe tool raw r).Bounded limits tool raw r := by
  have hsummary : Shortened limits.summaryChars (summary tool raw r)
      ((plain limits fallbacks).observe tool raw r).summary := shortened_cap _ rfl _ _
  let n := plain limits fallbacks
  change Observation.Bounded limits tool raw r (n.observe tool raw r)
  have hfacts : (n.observe tool raw r).facts = n.facts raw r := rfl
  by_cases hlong : max 1 limits.maxFacts < (allFacts raw r).length
  · have heq := n.facts_of_lt hlong
    refine ⟨?_, fun k v h hk => ?_, fun _ => ?_, hsummary⟩
    · have hfirst : (n.firstFacts raw r (max 1 limits.maxFacts - 1)).size ≤
          max 1 limits.maxFacts - 1 := n.size_firstFacts_le _
      have hpos : 1 ≤ max 1 limits.maxFacts := Nat.le_max_left ..
      rw [hfacts, heq]
      refine Nat.le_trans (Keyed.size_insert_le _) ?_
      change (n.firstFacts raw r (max 1 limits.maxFacts - 1)).size + 1 ≤ _
      omega
    · rw [hfacts, heq, Keyed.get?_insert_of_ne _ hk] at h
      exact of_get?_firstFacts n rfl h
    · rw [hfacts, heq, Keyed.get?_insert_self]
      rfl
  · have heq := n.facts_of_le (Nat.le_of_not_lt hlong)
    refine ⟨?_, fun k v h _ => ?_, fun h => absurd h hlong, hsummary⟩
    · rw [hfacts, heq]
      exact Nat.le_trans (n.size_firstFacts_le _) (Nat.le_of_not_lt hlong)
    · rw [hfacts, heq] at h
      exact of_get?_firstFacts n rfl h

end Normalizer

end Conductor

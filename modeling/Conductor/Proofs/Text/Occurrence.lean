import Conductor.Text.Substitution
import Mathlib.Data.List.Infix

/-!
# Occurrences

Where a pattern can stand in a text that is put together from parts.

* `Text.occursIn_iff` : `occursIn` finds the pattern exactly when it is an infix;
* `Text.infix_append_cons` : a pattern without a separator stands in one of the two parts that
  the separator divides;
* `Text.infix_map` : letters that the pattern has nothing to do with may be exchanged.
-/

namespace Conductor

namespace Text

/-- **`occursIn` finds the pattern exactly when it is an infix.** -/
theorem occursIn_iff {p l : List Char} : occursIn p l = true ↔ p <:+: l := by
  induction l with
  | nil => rw [occursIn, List.isEmpty_iff, List.infix_nil]
  | cons c rest ih =>
    rw [occursIn, Bool.or_eq_true, List.isPrefixOf_iff_prefix, ih, List.infix_cons_iff]

variable {α β : Type}

theorem eq_nil_of_prefix_cons {p v : List α} {c : α} (hc : c ∉ p) (h : p <+: c :: v) : p = [] := by
  rcases List.prefix_cons_iff.1 h with h | ⟨t, rfl, -⟩
  · exact h
  · exact absurd List.mem_cons_self hc

/-- **A pattern without the separator stands before it or after it.** -/
theorem infix_append_cons {p u v : List α} {c : α} (hc : c ∉ p) :
    p <:+: u ++ c :: v ↔ p <:+: u ∨ p <:+: v := by
  rw [List.infix_append_iff, List.infix_cons_iff]
  constructor
  · rintro (h | (h | h) | ⟨x, y, rfl, hx, hy⟩)
    · exact .inl h
    · rw [eq_nil_of_prefix_cons hc h]
      exact .inl (List.nil_infix)
    · exact .inr h
    · -- what stands behind `u` begins with the separator, so the pattern ends with `u`
      obtain rfl := eq_nil_of_prefix_cons (fun h => hc (List.mem_append_right x h)) hy
      exact .inl (by simpa using hx.isInfix)
  · rintro (h | h)
    · exact .inl h
    · exact .inr (.inl (.inr h))

/-- **A map that gives a letter of the pattern only for that letter does not disturb
occurrences.** -/
theorem infix_map {p l : List α} {f : α → α} (hf : ∀ x, f x ∈ p ∨ x ∈ p → f x = x) :
    p <:+: l.map f ↔ p <:+: l := by
  constructor
  · rintro ⟨x, y, h⟩
    obtain ⟨xp, y', rfl, hxp, rfl⟩ := List.map_eq_append_iff.1 h.symm
    obtain ⟨x', p', rfl, rfl, rfl⟩ := List.map_eq_append_iff.1 hxp
    have hp : p'.map f = p' :=
      (List.map_congr_left fun x hx => hf x (.inl (List.mem_map_of_mem hx))).trans (List.map_id p')
    rw [hp]
    exact ⟨x', y', rfl⟩
  · intro h
    have hp : p.map f = p :=
      (List.map_congr_left fun x hx => hf x (.inr hx)).trans (List.map_id p)
    rw [← hp]
    exact h.map f

end Text

end Conductor

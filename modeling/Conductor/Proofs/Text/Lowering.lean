import Conductor.Proofs.Text.Occurrence
import Conductor.Text.Blank
import Conductor.Text.Case
import Mathlib.Tactic.IntervalCases

/-!
# Small letters

The small form of a letter depends on its neighbours for one letter only: a capital sigma is
written differently at the end of a word. With the two small sigmas taken for one, a text is
brought into small letters letter by letter, and so part by part.

* `Text.smallForms` : small letters without regard to neighbours;
* `Text.infix_lowerChars` : **a pattern without a sigma occurs in the small letters of a text
  exactly when it occurs in the small forms**, which are those of the parts one after the other.
-/

namespace Conductor

namespace Text

/-- The small sigma inside a word, also for the one at the end. -/
def unifySigma (c : Char) : Char := if c = 'ς' then 'σ' else c

/-- The small form of a letter without regard to its neighbours. -/
def smallForm (c : Char) : List Char :=
  if c.toNat = 0x3A3 then ['σ'] else (lowerChar c).map unifySigma

/-- The small forms of the letters, one after the other. -/
def smallForms (cs : List Char) : List Char := cs.flatMap smallForm

theorem smallForms_append (u v : List Char) :
    smallForms (u ++ v) = smallForms u ++ smallForms v := List.flatMap_append

theorem smallForms_cons (c : Char) (cs : List Char) :
    smallForms (c :: cs) = smallForm c ++ smallForms cs := List.flatMap_cons

theorem map_lowerAfter (before cs : List Char) :
    (lowerAfter before cs).map unifySigma = smallForms cs := by
  induction cs generalizing before with
  | nil => rfl
  | cons c rest ih =>
    rw [lowerAfter, List.map_append, ih, smallForms_cons, smallForm]
    congr 1
    -- only the sigma looks at its neighbours, and both of its forms become one
    by_cases hc : c.toNat = 0x3A3
    · rw [if_pos hc, if_pos hc]
      split <;> decide
    · rw [if_neg hc, if_neg hc]

/-- **A pattern without a sigma occurs in the small letters exactly when it occurs in the small
forms.** -/
theorem infix_lowerChars {p cs : List Char} (h : 'σ' ∉ p) (h' : 'ς' ∉ p) :
    p <:+: lowerChars cs ↔ p <:+: smallForms cs := by
  rw [← map_lowerAfter [] cs, infix_map]
  · rfl
  · intro c hc
    unfold unifySigma at hc ⊢
    split
    · rename_i he
      rcases hc with hc | hc
      · exact absurd (by simpa [he] using hc) h
      · exact absurd (he ▸ hc) h'
    · rfl

theorem smallForm_of_isDigit {c : Char} (h : c.isDigit = true) : smallForm c = [c] := by
  obtain ⟨h₀, h₉⟩ := Char.isDigit_iff_toNat.1 h
  change 48 ≤ c.toNat at h₀
  change c.toNat ≤ 57 at h₉
  rw [← Char.ofNat_toNat c]
  generalize c.toNat = n at h₀ h₉
  interval_cases n <;> decide

theorem smallForms_of_isDigit {cs : List Char} (h : ∀ c ∈ cs, c.isDigit = true) :
    smallForms cs = cs := by
  induction cs with
  | nil => rfl
  | cons c cs ih =>
    rw [smallForms_cons, smallForm_of_isDigit (h c List.mem_cons_self),
      ih fun d hd => h d (List.mem_cons_of_mem c hd)]
    rfl

/-- The codes of the characters that are white space. -/
def blankCodes : List Nat :=
  List.range' 0x09 5 ++ List.range' 0x2000 11 ++
    [0x20, 0x85, 0xA0, 0x1680, 0x2028, 0x2029, 0x202F, 0x205F, 0x3000]

theorem toNat_mem_blankCodes {c : Char} (h : isBlank c = true) : c.toNat ∈ blankCodes := by
  simp only [isBlank, Bool.or_eq_true, Bool.and_eq_true, decide_eq_true_eq, beq_iff_eq] at h
  simp only [blankCodes, List.mem_append, List.mem_range'_1, List.mem_cons, List.not_mem_nil,
    or_false]
  omega

/-- White space is its own small form. -/
theorem smallForm_of_isBlank {c : Char} (h : isBlank c = true) : smallForm c = [c] := by
  have hall : ∀ n ∈ blankCodes, smallForm (Char.ofNat n) = [Char.ofNat n] := by decide +kernel
  have hc := hall _ (toNat_mem_blankCodes h)
  rwa [Char.ofNat_toNat] at hc

theorem smallForms_of_isBlank {cs : List Char} (h : ∀ c ∈ cs, isBlank c = true) :
    smallForms cs = cs := by
  induction cs with
  | nil => rfl
  | cons c cs ih =>
    rw [smallForms_cons, smallForm_of_isBlank (h c List.mem_cons_self),
      ih fun d hd => h d (List.mem_cons_of_mem c hd)]
    rfl

theorem isDigit_of_mem_toString {n : Nat} {c : Char} (h : c ∈ (toString n).toList) :
    c.isDigit = true := by
  rw [Nat.toString_eq_repr, Nat.toList_repr] at h
  exact Nat.isDigit_of_mem_toDigits (by decide) (by decide) h

end Text

end Conductor

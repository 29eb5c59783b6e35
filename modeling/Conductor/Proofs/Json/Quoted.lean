import Conductor.Json.Printer
import Conductor.Json.Reader
import Mathlib.Tactic.SplitIfs

/-!
# Strings that are read back

Every character of a string is written in a form that the reader takes for that character, and the
quotation mark that closes the string is the first one that does not stand behind a backslash.

* `Json.readStringChars_escapeChar` : a character is read from the form in which it was written;
* `Json.readStringChars_escaped` : **a string between quotation marks is read as that string.**
-/

namespace Conductor

namespace Json

variable {c : Char} {rest acc : List Char} {m : Mark}

/-! ### The forms of a character -/

/-- A character without an escape of its own is read as it stands. -/
theorem readStringChars_plain (hq : c ≠ '"') (hb : c ≠ '\\') (hc : ¬ c.toNat < 0x20) :
    readStringChars m acc (c :: rest) = readStringChars (m.past c) (c :: acc) rest := by
  rw [readStringChars]
  · rw [if_neg hq, if_neg hb, if_neg hc]
  all_goals
    intros
    simp_all

/-- A letter behind a backslash is read as the character it stands for. -/
theorem readStringChars_letter {x : Char} (h : simpleEscape c = some x) :
    readStringChars m acc ('\\' :: c :: rest) = readStringChars (m.along 2) (x :: acc) rest := by
  have hu : c ≠ 'u' := by
    rintro rfl
    cases h
  rw [readStringChars]
  · rw [h]
  all_goals
    intros
    simp_all

/-- The escape of a control character is read as its code. -/
theorem hexCode_control {n : Nat} (h : n < 0x20) :
    hexCode '0' '0' (hexDigit (n / 16)) (hexDigit (n % 16)) = some n := by
  revert n
  decide

/-- A code behind a backslash is read as its character. -/
theorem readStringChars_code (hc : c.toNat < 0x20) :
    readStringChars m acc ('\\' :: 'u' :: '0' :: '0' :: hexDigit (c.toNat / 16) ::
      hexDigit (c.toNat % 16) :: rest) = readStringChars (m.along 6) (c :: acc) rest := by
  have hlow : isLowSurrogate c.toNat = false := by
    simp only [isLowSurrogate, Bool.and_eq_false_iff, decide_eq_false_iff_not]
    omega
  have hhigh : isHighSurrogate c.toNat = false := by
    simp only [isHighSurrogate, Bool.and_eq_false_iff, decide_eq_false_iff_not]
    omega
  rw [readStringChars, hexCode_control hc]
  simp only [hlow, hhigh, Bool.false_eq_true, if_false, Char.ofNat_toNat]

theorem eq_of_toNat {n : Nat} (h : c.toNat = n) : c = Char.ofNat n := by
  rw [← h, Char.ofNat_toNat]

/-- **A character is read from the form in which it was written.** -/
theorem readStringChars_escapeChar (c : Char) (rest acc : List Char) (m : Mark) :
    ∃ m', readStringChars m acc (escapeChar c ++ rest) = readStringChars m' (c :: acc) rest := by
  unfold escapeChar
  split_ifs with hq hb h₈ h₉ h₁₀ h₁₂ h₁₃ hcode
  · subst hq
    exact ⟨_, readStringChars_letter rfl⟩
  · subst hb
    exact ⟨_, readStringChars_letter rfl⟩
  · obtain rfl := eq_of_toNat h₈
    exact ⟨_, readStringChars_letter rfl⟩
  · obtain rfl := eq_of_toNat h₉
    exact ⟨_, readStringChars_letter rfl⟩
  · obtain rfl := eq_of_toNat h₁₀
    exact ⟨_, readStringChars_letter rfl⟩
  · obtain rfl := eq_of_toNat h₁₂
    exact ⟨_, readStringChars_letter rfl⟩
  · obtain rfl := eq_of_toNat h₁₃
    exact ⟨_, readStringChars_letter rfl⟩
  · exact ⟨_, readStringChars_code hcode⟩
  · exact ⟨_, readStringChars_plain hq hb hcode⟩

/-! ### Strings -/

/-- **A string between quotation marks is read as that string**, and what stands behind it is
left. -/
theorem readStringChars_escaped (cs acc rest : List Char) (m : Mark) :
    ∃ m', readStringChars m acc (cs.flatMap escapeChar ++ '"' :: rest) =
      .ok (String.ofList (acc.reverse ++ cs), ⟨rest, m'⟩) := by
  induction cs generalizing acc m with
  | nil =>
    refine ⟨m.along 1, ?_⟩
    rw [List.flatMap_nil, List.nil_append, List.append_nil, readStringChars_quote]
  | cons c cs ih =>
    obtain ⟨m₁, h₁⟩ := readStringChars_escapeChar c (cs.flatMap escapeChar ++ '"' :: rest) acc m
    obtain ⟨m₂, h₂⟩ := ih (c :: acc) m₁
    refine ⟨m₂, ?_⟩
    rw [List.flatMap_cons, List.append_assoc, h₁, h₂, List.reverse_cons, List.append_assoc]
    rfl

/-- A string that was written is read as that string. -/
theorem readStringChars_quoteChars (s : String) (rest : List Char) (m : Mark) :
    ∃ m', readStringChars m [] ((quoteChars s).tail ++ rest) = .ok (s, ⟨rest, m'⟩) := by
  obtain ⟨m', h⟩ := readStringChars_escaped s.toList [] rest m
  refine ⟨m', ?_⟩
  rw [quoteChars, List.cons_append, List.tail_cons, List.append_assoc, List.singleton_append, h,
    List.reverse_nil, List.nil_append, String.ofList_toList]

end Json

end Conductor

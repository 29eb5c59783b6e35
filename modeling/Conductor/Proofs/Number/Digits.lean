import Conductor.Number.Decimal
import Conductor.Timestamp
import Mathlib.Algebra.Group.Int.Defs
import Mathlib.Algebra.Group.Nat.Defs

/-!
# Digits that are read back

* `takeWhile_run`, `run_unique` : a run of signs ends where a sign of another kind stands;
* `Decimal.valueOf_toDigits` : **the digits of a number are read as that number;**
* `Timestamp.valueOf_padded`, `Timestamp.length_padded` : so are digits with zeros in front, and
  they have the width that was asked for.
-/

namespace Conductor

section Runs

variable {p : Char → Bool} {ds ds' rest rest' : List Char}

/-- A run of signs of one kind ends where another sign stands. -/
theorem takeWhile_run (hds : ∀ c ∈ ds, p c = true) (hrest : ∀ c ∈ rest.head?, p c = false) :
    (ds ++ rest).takeWhile p = ds ∧ (ds ++ rest).dropWhile p = rest := by
  rw [List.takeWhile_append_of_pos hds, List.dropWhile_append_of_pos hds]
  cases rest with
  | nil => simp
  | cons c rest => simp [hrest c rfl]

/-- Two runs that begin one text are the same. -/
theorem run_unique (hds : ∀ c ∈ ds, p c = true) (hds' : ∀ c ∈ ds', p c = true)
    (hrest : ∀ c ∈ rest.head?, p c = false) (hrest' : ∀ c ∈ rest'.head?, p c = false)
    (h : ds ++ rest = ds' ++ rest') : ds = ds' := by
  rw [← (takeWhile_run hds hrest).1, h, (takeWhile_run hds' hrest').1]

end Runs

namespace Decimal

theorem isDigit_eq (c : Char) : isDigit c = c.isDigit := by
  rw [Bool.eq_iff_iff, Char.isDigit_iff_toNat]
  simp only [isDigit, Bool.and_eq_true, decide_eq_true_eq, Char.le_def, UInt32.le_iff_toNat_le]
  rfl

theorem isDigit_of_mem_toDigits {n : Nat} {c : Char} (h : c ∈ Nat.toDigits 10 n) :
    isDigit c = true := by
  rw [isDigit_eq]
  exact Nat.isDigit_of_mem_toDigits (by decide) (by decide) h

theorem valueOf_eq (ds : List Char) : valueOf ds = Nat.ofDigitChars 10 ds 0 := by
  unfold valueOf Nat.ofDigitChars
  congr 1
  funext n c
  rw [Nat.mul_comm]
  rfl

/-- **The digits of a number are read as that number.** -/
theorem valueOf_toDigits (n : Nat) : valueOf (Nat.toDigits 10 n) = n := by
  rw [valueOf_eq, Nat.ofDigitChars_ten_toDigits]

end Decimal

namespace Timestamp

open Decimal

variable {width n : Nat}

theorem isDigit_of_mem_padded {c : Char} (h : c ∈ padded width n) : isDigit c = true := by
  rcases List.mem_append.1 h with h | h
  · obtain rfl := List.eq_of_mem_replicate h
    rfl
  · exact isDigit_of_mem_toDigits h

/-- Zeros in front of a number are read as nothing. -/
theorem valueOf_padded : valueOf (padded width n) = n := by
  rw [padded, valueOf_eq, Nat.ofDigitChars_append, Nat.ofDigitChars_replicate_zero, Nat.mul_zero,
    Nat.ofDigitChars_ten_toDigits]

/-- A number that is not too large has the width that was asked for. -/
theorem length_padded (hw : 0 < width) (h : n < 10 ^ width) : (padded width n).length = width := by
  have hlen := (Nat.length_toDigits_le_iff (by decide) hw).2 h
  rw [padded, List.length_append, List.length_replicate]
  omega

end Timestamp

end Conductor

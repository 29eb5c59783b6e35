import Conductor.Number.Binary
import Mathlib.Algebra.Order.Field.Power
import Mathlib.Data.Rat.Cast.Order
import Mathlib.Tactic.FieldSimp
import Mathlib.Tactic.Linarith
import Mathlib.Tactic.NormNum
import Mathlib.Tactic.Positivity
import Mathlib.Tactic.Ring

/-!
# How numbers are rounded

A quotient is rounded in units of a power of two: the unit is chosen so that a given number of bits
is left, and then the nearest whole number of units is taken. Both are said here of rational
numbers, without the quotient by which the rational number is given.

* `Binary.IsNearest`, `Binary.isNearest_roundDiv` : a whole number is nearest to a rational one, a
  half going to the even neighbour;
* `Binary.Format.Rounds`, `Binary.Format.rounds_unit` : the unit and the number of units to which a
  rational number is rounded;
* `Binary.Format.IsRounded.mono` : **rounding keeps the order;**
* `Binary.Format.Rounds.scale` : a number that is not among the least is rounded alike at every
  scale;
* `Binary.Format.round_cases` : **what is rounded is a number of the format, or it is beyond all of
  them.**
-/

namespace Conductor

namespace Binary

/-! ### To a whole number -/

/-- The whole number is nearest to the rational one; of two that are equally near it is the even
one. -/
structure IsNearest (m : Nat) (q : Rat) : Prop where
  lower : (m : Rat) - 1 / 2 ≤ q
  upper : q ≤ m + 1 / 2
  even : q = m - 1 / 2 ∨ q = m + 1 / 2 → m % 2 = 0

namespace IsNearest

variable {m m' : Nat} {q q' : Rat}

theorem natCast (m : Nat) : IsNearest m m where
  lower := by linarith
  upper := by linarith
  even h := by rcases h with h | h <;> linarith

/-- **Rounding to a whole number keeps the order.** -/
theorem mono (h : IsNearest m q) (h' : IsNearest m' q') (hle : q ≤ q') : m ≤ m' := by
  by_contra hlt
  have hstep : (m' : Rat) + 1 ≤ m := by exact_mod_cast Nat.lt_of_not_le hlt
  have hlower := h.lower
  have hupper := h'.upper
  -- both numbers lie half way between the two neighbours, and only one of these is even
  have hq : q = m - 1 / 2 := by linarith
  have hq' : q' = m' + 1 / 2 := by linarith
  have hnext : (m : Rat) = (m' + 1 : Nat) := by push_cast; linarith
  have heven := h.even (.inl hq)
  have heven' := h'.even (.inr hq')
  have hnext : m = m' + 1 := by exact_mod_cast hnext
  omega

theorem le_natCast (h : IsNearest m q) {n : Nat} (hle : q ≤ n) : m ≤ n := h.mono (natCast n) hle

theorem natCast_le (h : IsNearest m q) {n : Nat} (hle : (n : Rat) ≤ q) : n ≤ m :=
  (natCast n).mono h hle

end IsNearest

/-- **A quotient is rounded to the whole number that is nearest to it.** -/
theorem isNearest_roundDiv (num : Nat) {den : Nat} (hden : 0 < den) :
    IsNearest (roundDiv num den) (num / den) := by
  have hpos : (0 : Rat) < den := by exact_mod_cast hden
  have hmod : num % den < den := Nat.mod_lt _ hden
  -- the quotient is its whole part and a rest that is less than one
  have hsplit : (num : Rat) / den = (num / den : Nat) + (num % den : Nat) / den := by
    rw [eq_comm, ← sub_eq_zero]
    have h : (num : Rat) = den * (num / den : Nat) + (num % den : Nat) := by
      exact_mod_cast (Nat.div_add_mod num den).symm
    field_simp
    linarith
  have hrest : (0 : Rat) ≤ (num % den : Nat) / den := by positivity
  have hrest' : ((num % den : Nat) : Rat) / den < 1 := by
    rw [div_lt_one hpos]
    exact_mod_cast hmod
  unfold roundDiv
  simp only
  rw [hsplit]
  split
  · -- less than a half is left
    rename_i hlt
    have hlt : ((num % den : Nat) : Rat) / den < 1 / 2 := by
      rw [div_lt_div_iff₀ hpos two_pos, mul_comm, one_mul]
      exact_mod_cast hlt
    exact ⟨by linarith, by linarith, fun h => by rcases h with h | h <;> linarith⟩
  split
  · -- more than a half is left
    rename_i hgt
    have hgt : 1 / 2 < ((num % den : Nat) : Rat) / den := by
      rw [div_lt_div_iff₀ two_pos hpos, mul_comm _ (2 : Rat), one_mul]
      exact_mod_cast hgt
    refine ⟨?_, ?_, fun h => ?_⟩ <;> push_cast at *
    · linarith
    · linarith
    · rcases h with h | h <;> linarith
  · rename_i hge hle
    have hhalf : ((num % den : Nat) : Rat) / den = 1 / 2 := by
      rw [div_eq_div_iff hpos.ne' two_ne_zero, mul_comm, one_mul]
      have h : 2 * (num % den) = den := by omega
      exact_mod_cast h
    rw [hhalf]
    rcases Nat.mod_two_eq_zero_or_one (num / den) with he | ho
    · rw [he]
      exact ⟨by push_cast; linarith, by push_cast; linarith, fun _ => by omega⟩
    · rw [ho]
      exact ⟨by push_cast; linarith, by push_cast; linarith, fun _ => by omega⟩

/-! ### In units -/

theorem inUnits_den_pos (num : Nat) {den : Nat} (hden : 0 < den) (e : Int) :
    0 < (inUnits num den e).2 := by
  unfold inUnits
  split
  · exact Nat.mul_pos hden (Nat.pow_pos Nat.zero_lt_two)
  · exact hden

theorem ratio_inUnits (num den : Nat) (e : Int) :
    ((inUnits num den e).1 : Rat) / (inUnits num den e).2 = num / den / 2 ^ e := by
  unfold inUnits
  split
  · rename_i he
    obtain ⟨k, rfl⟩ := Int.eq_ofNat_of_zero_le he
    simp [div_div]
  · rename_i he
    obtain ⟨k, rfl⟩ : ∃ k : Nat, e = -k := ⟨(-e).toNat, by omega⟩
    simp [mul_div_right_comm]

/-- The value of a number that is not negative. -/
theorem Finite.toRat_eq (m : Nat) (e : Int) : (⟨false, m, e⟩ : Finite).toRat = m * 2 ^ e := by
  unfold toRat ratio
  simp only [Bool.false_eq_true, if_false]
  split
  · rename_i he
    obtain ⟨k, rfl⟩ := Int.eq_ofNat_of_zero_le he
    simp [Rat.mkRat_eq_div]
  · rename_i he
    obtain ⟨k, rfl⟩ : ∃ k : Nat, e = -k := ⟨(-e).toNat, by omega⟩
    simp [Rat.mkRat_eq_div, div_eq_mul_inv]

/-! ### To a number of a format -/

namespace Format

variable {f : Format} {q q' v v' : Rat} {m m' : Nat} {e e' : Int}

/-- The number is rounded to this many units of this power of two. -/
structure Rounds (f : Format) (q : Rat) (m : Nat) (e : Int) : Prop where
  least : f.least ≤ e
  /-- The number has not more bits than the format. -/
  lt : q < 2 ^ (f.precision + e)
  /-- It has as many, if there is a smaller unit. -/
  le : f.least < e → 2 ^ (f.precision - 1 + e) ≤ q
  nearest : IsNearest m (q / 2 ^ e)

/-- What the number is rounded to, if nothing is out of range. -/
def IsRounded (f : Format) (q v : Rat) : Prop := ∃ m e, f.Rounds q m e ∧ v = m * 2 ^ e

/-- The least number that is beyond the format. -/
def limit (f : Format) : Rat := 2 ^ (f.precision + f.greatest)

/-- The number of units has not more bits than the format, but for the next power of two. -/
theorem Rounds.units_le (h : f.Rounds q m e) : m ≤ 2 ^ f.precision := by
  refine h.nearest.le_natCast ?_
  rw [div_le_iff₀ (by positivity), Nat.cast_pow, Nat.cast_ofNat, ← zpow_natCast,
    ← zpow_add₀ two_ne_zero]
  exact h.lt.le

theorem Rounds.value_le (h : f.Rounds q m e) : (m : Rat) * 2 ^ e ≤ 2 ^ (f.precision + e) := by
  rw [zpow_add₀ two_ne_zero, zpow_natCast]
  have hm : (m : Rat) ≤ 2 ^ f.precision := by exact_mod_cast h.units_le
  exact mul_le_mul_of_nonneg_right hm (by positivity)

theorem Rounds.le_value (hp : 0 < f.precision) (h : f.Rounds q m e) (he : f.least < e) :
    (2 : Rat) ^ (f.precision - 1 + e) ≤ m * 2 ^ e := by
  obtain ⟨k, hk⟩ : ∃ k : Nat, f.precision = k + 1 := ⟨f.precision - 1, by omega⟩
  have hle := h.le he
  have hexp : ((f.precision : Int) - 1 + e) = k + e := by omega
  rw [hexp] at hle ⊢
  have hunits : 2 ^ k ≤ m := by
    refine h.nearest.natCast_le ?_
    rw [le_div_iff₀ (by positivity), Nat.cast_pow, Nat.cast_ofNat, ← zpow_natCast,
      ← zpow_add₀ two_ne_zero]
    exact hle
  rw [zpow_add₀ two_ne_zero, zpow_natCast]
  have hm : (2 : Rat) ^ k ≤ m := by exact_mod_cast hunits
  exact mul_le_mul_of_nonneg_right hm (by positivity)

/-- **Rounding keeps the order.** -/
theorem IsRounded.mono (hp : 0 < f.precision) (h : f.IsRounded q v) (h' : f.IsRounded q' v')
    (hle : q ≤ q') : v ≤ v' := by
  obtain ⟨m, e, hr, rfl⟩ := h
  obtain ⟨m', e', hr', rfl⟩ := h'
  rcases lt_trichotomy e e' with he | rfl | he
  · -- a power of two stands between them
    have hbetween : (2 : Rat) ^ (f.precision + e) ≤ 2 ^ (f.precision - 1 + e') :=
      zpow_le_zpow_right₀ one_le_two (by omega)
    exact (hr.value_le.trans hbetween).trans (hr'.le_value hp (hr.least.trans_lt he))
  · have hunits : m ≤ m' :=
      hr.nearest.mono hr'.nearest (div_le_div_of_nonneg_right hle (by positivity))
    have hunits : (m : Rat) ≤ m' := by exact_mod_cast hunits
    exact mul_le_mul_of_nonneg_right hunits (by positivity)
  · have hbetween : (2 : Rat) ^ (f.precision + e') ≤ 2 ^ (f.precision - 1 + e) :=
      zpow_le_zpow_right₀ one_le_two (by omega)
    have hge := hr.le (hr'.least.trans_lt he)
    have hlt := hr'.lt
    linarith

/-- A number is rounded in one way only. -/
theorem IsRounded.unique (hp : 0 < f.precision) (h : f.IsRounded q v) (h' : f.IsRounded q v') :
    v = v' :=
  le_antisymm (h.mono hp h' le_rfl) (h'.mono hp h le_rfl)

theorem IsRounded.nonneg (h : f.IsRounded q v) : 0 ≤ v := by
  obtain ⟨m, e, -, rfl⟩ := h
  positivity

theorem rounds_zero (f : Format) : f.Rounds 0 0 f.least where
  least := le_rfl
  lt := by positivity
  le h := absurd h (lt_irrefl _)
  nearest := by simpa using IsNearest.natCast 0

/-- Nothing is rounded to nothing. -/
theorem isRounded_zero (f : Format) : f.IsRounded 0 0 := ⟨0, f.least, f.rounds_zero, by simp⟩

/-- A power of two is a number of the format, if the format has a unit for it. -/
theorem isRounded_two_zpow (hp : 0 < f.precision) {k : Int} (hk : f.least ≤ k - f.precision + 1) :
    f.IsRounded (2 ^ k) (2 ^ k) := by
  obtain ⟨n, hn⟩ : ∃ n : Nat, f.precision = n + 1 := ⟨f.precision - 1, by omega⟩
  have hsplit : (2 : Rat) ^ k = (2 ^ n : Nat) * 2 ^ (k - f.precision + 1) := by
    rw [Nat.cast_pow, Nat.cast_ofNat, ← zpow_natCast, ← zpow_add₀ two_ne_zero]
    congr 1
    omega
  refine ⟨2 ^ n, k - f.precision + 1, ⟨hk, ?_, fun _ => ?_, ?_⟩, hsplit⟩
  · exact zpow_lt_zpow_right₀ one_lt_two (by omega)
  · exact zpow_le_zpow_right₀ one_le_two (by omega)
  · rw [hsplit, mul_div_assoc, div_self (by positivity), mul_one]
    exact .natCast _

/-- **A number that is not among the least is rounded alike at every scale** that the format has a
unit for. -/
theorem Rounds.scale (h : f.Rounds q m e) (he : f.least < e) {k : Int} (hk : f.least ≤ e + k) :
    f.Rounds (q * 2 ^ k) m (e + k) where
  least := hk
  lt := by
    rw [← add_assoc, zpow_add₀ two_ne_zero _ k]
    exact mul_lt_mul_of_pos_right h.lt (by positivity)
  le _ := by
    rw [← add_assoc, zpow_add₀ two_ne_zero _ k]
    exact mul_le_mul_of_nonneg_right (h.le he) (by positivity)
  nearest := by
    rw [zpow_add₀ two_ne_zero, mul_div_mul_right _ _ (by positivity)]
    exact h.nearest

/-! ### What rounding gives -/

section Quotient

variable {num den : Nat}

/-- The logarithms of a quotient tell its size up to a factor of four. -/
theorem ratio_bounds (hnum : 0 < num) (hden : 0 < den) :
    (2 : Rat) ^ ((num.log2 : Int) - den.log2 - 1) ≤ num / den ∧
      (num : Rat) / den < 2 ^ ((num.log2 : Int) - den.log2 + 1) := by
  have hpos : (0 : Rat) < den := by exact_mod_cast hden
  have hnum₁ : (2 : Rat) ^ (num.log2 : Int) ≤ num := by
    rw [zpow_natCast]
    exact_mod_cast Nat.log2_self_le (Nat.ne_of_gt hnum)
  have hnum₂ : (num : Rat) < 2 ^ ((num.log2 : Int) + 1) := by
    rw [← Nat.cast_one, ← Nat.cast_add, zpow_natCast]
    exact_mod_cast Nat.lt_log2_self
  have hden₁ : (2 : Rat) ^ (den.log2 : Int) ≤ den := by
    rw [zpow_natCast]
    exact_mod_cast Nat.log2_self_le (Nat.ne_of_gt hden)
  have hden₂ : (den : Rat) < 2 ^ ((den.log2 : Int) + 1) := by
    rw [← Nat.cast_one, ← Nat.cast_add, zpow_natCast]
    exact_mod_cast Nat.lt_log2_self
  constructor
  · rw [le_div_iff₀ hpos]
    calc (2 : Rat) ^ ((num.log2 : Int) - den.log2 - 1) * den
        ≤ 2 ^ ((num.log2 : Int) - den.log2 - 1) * 2 ^ ((den.log2 : Int) + 1) :=
          mul_le_mul_of_nonneg_left hden₂.le (by positivity)
      _ = 2 ^ (num.log2 : Int) := by
          rw [← zpow_add₀ two_ne_zero]
          congr 1
          omega
      _ ≤ num := hnum₁
  · rw [div_lt_iff₀ hpos]
    calc (num : Rat) < 2 ^ ((num.log2 : Int) + 1) := hnum₂
      _ = 2 ^ ((num.log2 : Int) - den.log2 + 1) * 2 ^ (den.log2 : Int) := by
          rw [← zpow_add₀ two_ne_zero]
          congr 1
          omega
      _ ≤ 2 ^ ((num.log2 : Int) - den.log2 + 1) * den :=
          mul_le_mul_of_nonneg_left hden₁ (by positivity)

/-- **The unit is right**, and the quotient is rounded in it. -/
theorem rounds_unit (hnum : 0 < num) (hden : 0 < den) :
    f.Rounds (num / den)
      (roundDiv (inUnits num den (f.unit num den)).1 (inUnits num den (f.unit num den)).2)
      (f.unit num den) := by
  obtain ⟨hlower, hupper⟩ := ratio_bounds hnum hden
  set low : Int := (num.log2 : Int) - den.log2 - f.precision with hlow
  -- the number has one bit too many in the lower unit, or it has just as many as it should
  have htest : 2 ^ f.precision ≤ (inUnits num den low).1 / (inUnits num den low).2 ↔
      (2 : Rat) ^ (f.precision + low) ≤ num / den := by
    have hpos := inUnits_den_pos num hden low
    have hpos' : (0 : Rat) < (inUnits num den low).2 := by exact_mod_cast hpos
    rw [Nat.le_div_iff_mul_le hpos, zpow_add₀ two_ne_zero, ← le_div_iff₀ (by positivity),
      ← ratio_inUnits, le_div_iff₀ hpos', zpow_natCast]
    exact_mod_cast Iff.rfl
  have hunit : f.unit num den = max
      (if (2 : Rat) ^ (f.precision + low) ≤ num / den then low + 1 else low) f.least := by
    rw [unit, ← hlow]
    simp only [Nat.pow_eq, htest]
  have hnearest := isNearest_roundDiv (inUnits num den (f.unit num den)).1
    (inUnits_den_pos num hden (f.unit num den))
  rw [ratio_inUnits] at hnearest
  refine ⟨hunit ▸ le_max_right _ _, ?_, fun hleast => ?_, hnearest⟩
  · -- a larger unit leaves fewer bits
    have hlt : (num : Rat) / den < 2 ^ (f.precision +
        (if (2 : Rat) ^ (f.precision + low) ≤ num / den then low + 1 else low)) := by
      split
      · refine hupper.trans_eq ?_
        congr 1
        omega
      · rename_i hno
        exact not_le.1 hno
    refine hlt.trans_le (zpow_le_zpow_right₀ one_le_two ?_)
    rw [hunit]
    exact Int.add_le_add_left (le_max_left _ _) _
  · rw [hunit] at hleast ⊢
    rw [max_eq_left (le_of_lt ((lt_max_iff.1 hleast).resolve_right (lt_irrefl _)))]
    split
    · rename_i hyes
      refine le_trans (le_of_eq ?_) hyes
      congr 1
      omega
    · refine le_trans (le_of_eq ?_) hlower
      congr 1
      omega

/-- **What is rounded is a number of the format, or it is beyond all of them.** -/
theorem round_cases (num : Nat) (hp : 0 < f.precision) (hrange : f.least ≤ f.greatest)
    (hden : 0 < den) :
    ∃ v, f.IsRounded (num / den) v ∧
      ((v < f.limit ∧ ∃ x, f.round false num den = .finite x ∧ x.toRat = v) ∨
        (f.limit ≤ v ∧ f.round false num den = .infinity false)) := by
  rcases Nat.eq_zero_or_pos num with rfl | hnum
  · refine ⟨0, by simpa using f.isRounded_zero, .inl ⟨?_, .zero f false, rfl, ?_⟩⟩
    · unfold limit
      positivity
    · rw [Finite.zero, Finite.toRat_eq, Nat.cast_zero, zero_mul]
  have hr : f.Rounds _ _ _ := rounds_unit hnum hden
  unfold round
  rw [if_neg (Nat.ne_of_gt hnum)]
  simp only
  generalize roundDiv _ _ = m at hr ⊢
  generalize f.unit num den = e at hr ⊢
  refine ⟨m * 2 ^ e, ⟨m, e, hr, rfl⟩, ?_⟩
  by_cases hm : m = Nat.pow 2 f.precision
  · -- the next power of two is written with the next unit
    have hvalue : (m : Rat) * 2 ^ e = 2 ^ (f.precision + e) := by
      rw [hm, Nat.pow_eq, Nat.cast_pow, Nat.cast_ofNat, zpow_add₀ two_ne_zero, zpow_natCast]
    rw [if_pos hm, hvalue]
    by_cases hbeyond : f.greatest < e + 1
    · exact .inr ⟨zpow_le_zpow_right₀ one_le_two (by omega), if_pos hbeyond⟩
    · refine .inl ⟨zpow_lt_zpow_right₀ one_lt_two (by omega), _, if_neg hbeyond, ?_⟩
      rw [Finite.toRat_eq, Nat.pow_eq, Nat.cast_pow, Nat.cast_ofNat, ← zpow_natCast,
        ← zpow_add₀ two_ne_zero]
      congr 1
      omega
  · rw [if_neg hm]
    by_cases hbeyond : f.greatest < e
    · refine .inr ⟨le_trans ?_ (hr.le_value hp (hrange.trans_lt hbeyond)), if_pos hbeyond⟩
      exact zpow_le_zpow_right₀ one_le_two (by omega)
    · refine .inl ⟨?_, _, if_neg hbeyond, Finite.toRat_eq m e⟩
      have hlt : (m : Rat) < 2 ^ f.precision := by
        exact_mod_cast Nat.lt_of_le_of_ne hr.units_le hm
      calc (m : Rat) * 2 ^ e < 2 ^ f.precision * 2 ^ e :=
            mul_lt_mul_of_pos_right hlt (by positivity)
        _ = 2 ^ (f.precision + e) := by rw [zpow_add₀ two_ne_zero, zpow_natCast]
        _ ≤ f.limit := zpow_le_zpow_right₀ one_le_two (by omega)

end Quotient

/-- **A number that is not negative is rounded**, or it is beyond the format. -/
theorem ofRat_cases (hp : 0 < f.precision) (hrange : f.least ≤ f.greatest) (hq : 0 ≤ q) :
    ∃ v, f.IsRounded q v ∧
      ((v < f.limit ∧ ∃ x, f.ofRat q = .finite x ∧ x.toRat = v) ∨
        (f.limit ≤ v ∧ f.ofRat q = .infinity false)) := by
  have hvalue : (q.num.natAbs : Rat) / q.den = q := by
    rw [← Int.cast_natCast, Int.natAbs_of_nonneg (Rat.num_nonneg.2 hq), Rat.num_div_den]
  have h := round_cases q.num.natAbs hp hrange q.den_pos
  rw [hvalue] at h
  rwa [ofRat, decide_eq_false (not_lt.2 hq)]

end Format

end Binary

end Conductor

import Conductor.Proofs.Number.Rounding
import Conductor.Retry.Backoff

/-!
# How waits grow

The wait before a retry is computed in binary numbers, one rounded step after the other. Rounding
keeps the order, and what is out of range is as good as infinite, so that a wait grows with whatever
its last step grows with. That is the number of the retry itself for the linear strategy. For the
exponential one it is the exponent, and this is a signed number: it is the number of the retry less
one only up to the number `2 ^ 31`. The numbers beyond have negative exponents and divide the base.

* `RetryPolicy.AtMost` : a number that was computed is at most another one, or that one is out of
  range;
* `RetryPolicy.waitOf_mono`, `RetryPolicy.waitOf_le_longest` : **waits grow with the seconds
  computed for them, and none is longer than the longest;**
* `RetryPolicy.exponentOf_of_le`, `RetryPolicy.exponentOf_of_lt` : the exponents of both halves of
  the numbers of 32 bits;
* `RetryPolicy.delay_lt_of_wrapped` : **a wait of the upper half is shorter than one of the lower
  half**, unless it is the longest one or the other one is nothing;
* `RetryPolicy.delay_grows_iff` : **between which retries the wait grows.**
-/

namespace Conductor

theorem Duration.lt_of_le_of_ne {d d' : Duration} (h : d ≤ d') (hne : d ≠ d') : d < d' := by
  obtain ⟨n⟩ := d
  obtain ⟨n'⟩ := d'
  exact Nat.lt_of_le_of_ne h fun heq => hne (congrArg mk heq)

namespace RetryPolicy

open Binary (double IsNearest)

variable {p : RetryPolicy} {seed : String} {q q' v b : Rat} {x y : Option Rat} {r s : Nat}
  {k k' : Int}

/-! ### Steps of the computation -/

theorem double_precision_pos : 0 < double.precision := by decide

/-- **A step gives what its exact value is rounded to, unless that is out of range.** -/
theorem nearest_eq_some_iff (hq : 0 ≤ q) :
    nearest q = some v ↔ double.IsRounded q v ∧ v < double.limit := by
  have hp := double_precision_pos
  obtain ⟨w, hw, ⟨hlt, n, hn, hvalue⟩ | ⟨hge, hinf⟩⟩ :=
    Binary.Format.ofRat_cases (f := double) hp (by decide) hq
  · have hnearest : nearest q = some w := by simp only [nearest, hn, hvalue]
    rw [hnearest, Option.some.injEq]
    constructor
    · rintro rfl
      exact ⟨hw, hlt⟩
    · exact fun h => hw.unique hp h.1
  · have hnearest : nearest q = none := by simp only [nearest, hinf]
    rw [hnearest]
    refine ⟨nofun, fun h => ?_⟩
    rw [hw.unique hp h.1] at hge
    exact absurd h.2 (not_lt.2 hge)

theorem nearest_zero : nearest 0 = some 0 := by
  refine (nearest_eq_some_iff le_rfl).2 ⟨double.isRounded_zero, ?_⟩
  unfold Binary.Format.limit
  positivity

/-- A number that was computed is not negative and at most the other one; what is out of range is
above all numbers. -/
def AtMost (x y : Option Rat) : Prop := ∀ b, y = some b → ∃ a, x = some a ∧ 0 ≤ a ∧ a ≤ b

/-- **A step keeps the order.** -/
theorem nearest_atMost (hq : 0 ≤ q) (hle : q ≤ q') : AtMost (nearest q) (nearest q') := by
  intro b hb
  obtain ⟨hb, hlimit⟩ := (nearest_eq_some_iff (hq.trans hle)).1 hb
  obtain ⟨a, ha, -⟩ := Binary.Format.ofRat_cases (f := double) double_precision_pos (by decide) hq
  have hab : a ≤ b := ha.mono double_precision_pos hb hle
  exact ⟨a, (nearest_eq_some_iff hq).2 ⟨ha, hab.trans_lt hlimit⟩, ha.nonneg, hab⟩

/-- A number that is at least a power of two is so after rounding. -/
theorem two_zpow_le_of_nearest (hk : -1022 ≤ k) (hle : 2 ^ k ≤ q) (h : nearest q = some v) :
    2 ^ k ≤ v := by
  have hq : 0 ≤ q := le_trans (by positivity) hle
  have hpower : double.IsRounded (2 ^ k) (2 ^ k) :=
    Binary.Format.isRounded_two_zpow double_precision_pos (by simp only [double]; omega)
  exact hpower.mono double_precision_pos ((nearest_eq_some_iff hq).1 h).1 hle

/-- A number that is at most a power of two in range is so after rounding. -/
theorem exists_nearest_le (hk : -1022 ≤ k) (hk' : k < 1024) (hq : 0 ≤ q) (hle : q ≤ 2 ^ k) :
    ∃ v, nearest q = some v ∧ 0 ≤ v ∧ v ≤ 2 ^ k := by
  have hpower : nearest (2 ^ k) = some (2 ^ k) := by
    refine (nearest_eq_some_iff (by positivity)).2 ⟨?_, ?_⟩
    · exact Binary.Format.isRounded_two_zpow double_precision_pos (by simp only [double]; omega)
    · exact zpow_lt_zpow_right₀ one_lt_two (by simp only [double]; omega)
  exact nearest_atMost hq hle _ hpower

/-! ### From seconds to a wait -/

/-- The wait for the seconds that were computed. -/
def waitOf : Option Rat → Duration
  | some q => if 60 ≤ q then longest else toDuration q
  | none => longest

theorem delay_eq (p : RetryPolicy) (r : Nat) (seed : String) :
    p.delay r seed = waitOf (p.rawSeconds (max r 1) seed) := rfl

theorem isNearest_toDuration (hq : 0 ≤ q) : IsNearest (toDuration q).nanos (q * 1000000000) := by
  have h := Binary.isNearest_roundDiv (q.num.toNat * Duration.perSecond) q.den_pos
  have hvalue : ((q.num.toNat * Duration.perSecond : Nat) : Rat) / q.den = q * 1000000000 := by
    have hnum : (q.num.toNat : Rat) = q.num := by
      exact_mod_cast congrArg (Int.cast (R := Rat)) (Int.toNat_of_nonneg (Rat.num_nonneg.2 hq))
    rw [Nat.cast_mul, hnum, mul_div_right_comm, Rat.num_div_den]
    rfl
  rwa [hvalue] at h

theorem waitOf_of_le (h : 60 ≤ q) : waitOf (some q) = longest := if_pos h

theorem waitOf_of_not_le (h : ¬ 60 ≤ q) : waitOf (some q) = toDuration q := if_neg h

theorem waitOf_zero : waitOf (some 0) = .zero := by decide +kernel

/-- **No wait is longer than the longest one.** -/
theorem waitOf_le_longest (x : Option Rat) : waitOf x ≤ longest := by
  cases x with
  | none => exact Nat.le_refl _
  | some q =>
    simp only [waitOf]
    split
    · exact Nat.le_refl _
    rename_i hlt
    rcases le_total 0 q with hq | hq
    · refine (isNearest_toDuration hq).le_natCast ?_
      have hlongest : (longest.nanos : Rat) = 60 * 1000000000 := by
        norm_num [longest, Duration.seconds, Duration.perSecond]
      rw [hlongest]
      linarith
    · -- less than nothing is nothing
      have hnum : q.num.toNat = 0 := Int.toNat_of_nonpos (Rat.num_nonpos.2 hq)
      have hzero : toDuration q = .zero := by
        rw [toDuration, hnum, Nat.zero_mul, Binary.roundDiv]
        simp [q.den_pos, Duration.zero]
      rw [hzero]
      exact Nat.zero_le _

/-- **Waits grow with the seconds that were computed for them.** -/
theorem waitOf_mono (h : AtMost x y) : waitOf x ≤ waitOf y := by
  cases y with
  | none => exact waitOf_le_longest x
  | some b =>
    obtain ⟨a, rfl, ha, hab⟩ := h b rfl
    by_cases hb : 60 ≤ b
    · rw [waitOf_of_le hb]
      exact waitOf_le_longest _
    · rw [waitOf_of_not_le fun h => hb (h.trans hab), waitOf_of_not_le hb]
      exact (isNearest_toDuration ha).mono (isNearest_toDuration (ha.trans hab)) (by linarith)

/-! ### The base -/

/-- The base is a number that is not negative, rounded from the whole seconds and the rest. -/
theorem baseSeconds_eq_some (h : p.baseSeconds = some b) : ∃ whole part,
    nearest p.baseBackoff.wholeSeconds = some whole ∧
    nearest (p.baseBackoff.subsecond / 1000000000) = some part ∧
    0 ≤ whole ∧ 0 ≤ part ∧ nearest (whole + part) = some b := by
  unfold baseSeconds at h
  rw [Rat.mkRat_eq_div] at h
  simp only [Option.bind_eq_bind, Option.bind_eq_some_iff] at h
  obtain ⟨whole, hwhole, part, hpart, hb⟩ := h
  have hsub : (0 : Rat) ≤ p.baseBackoff.subsecond / 1000000000 := by positivity
  have hpart : nearest (p.baseBackoff.subsecond / 1000000000) = some part := by
    simpa [Duration.perSecond] using hpart
  exact ⟨whole, part, hwhole, hpart,
    ((nearest_eq_some_iff (Nat.cast_nonneg _)).1 hwhole).1.nonneg,
    ((nearest_eq_some_iff hsub).1 hpart).1.nonneg, hb⟩

theorem baseSeconds_nonneg (h : p.baseSeconds = some b) : 0 ≤ b := by
  obtain ⟨whole, part, -, -, hwhole, hpart, hb⟩ := baseSeconds_eq_some h
  exact ((nearest_eq_some_iff (add_nonneg hwhole hpart)).1 hb).1.nonneg

/-- A base that is not nothing is at least about a nanosecond. -/
theorem baseSeconds_eq_zero_or (h : p.baseSeconds = some b) : b = 0 ∨ 2 ^ (-30 : Int) ≤ b := by
  obtain ⟨whole, part, hwhole, hpart, hwhole₀, hpart₀, hb⟩ := baseSeconds_eq_some h
  rcases Nat.eq_zero_or_pos p.baseBackoff.wholeSeconds with hw | hw
  · rcases Nat.eq_zero_or_pos p.baseBackoff.subsecond with hs | hs
    · left
      rw [hw, Nat.cast_zero, nearest_zero] at hwhole
      rw [hs, Nat.cast_zero, zero_div, nearest_zero] at hpart
      obtain rfl := Option.some.inj hwhole
      obtain rfl := Option.some.inj hpart
      rw [add_zero, nearest_zero] at hb
      exact (Option.some.inj hb).symm
    · right
      have hsub : (1 : Rat) ≤ p.baseBackoff.subsecond := by exact_mod_cast hs
      have hle : 2 ^ (-30 : Int) ≤ (p.baseBackoff.subsecond : Rat) / 1000000000 := by
        rw [le_div_iff₀ (by norm_num)]
        norm_num
        linarith
      refine two_zpow_le_of_nearest (by norm_num) ?_ hb
      exact (two_zpow_le_of_nearest (by norm_num) hle hpart).trans (le_add_of_nonneg_left hwhole₀)
  · right
    have hone : (2 : Rat) ^ (0 : Int) ≤ p.baseBackoff.wholeSeconds := by
      rw [zpow_zero]
      exact_mod_cast hw
    refine two_zpow_le_of_nearest (by norm_num) ?_ hb
    calc (2 : Rat) ^ (-30 : Int) ≤ 2 ^ (0 : Int) := zpow_le_zpow_right₀ one_le_two (by norm_num)
      _ ≤ whole := two_zpow_le_of_nearest (by norm_num) hone hwhole
      _ ≤ whole + part := le_add_of_nonneg_right hpart₀

/-- A base of so many seconds as 64 bits can count is in range. -/
theorem exists_baseSeconds (h : p.baseBackoff.wholeSeconds < 2 ^ 64) :
    ∃ b, p.baseSeconds = some b := by
  have hsub : (p.baseBackoff.subsecond : Rat) / 1000000000 ≤ 2 ^ (0 : Int) := by
    rw [zpow_zero, div_le_one (by norm_num)]
    exact_mod_cast (Nat.mod_lt _ (by decide : 0 < Duration.perSecond)).le
  have hsecs : (p.baseBackoff.wholeSeconds : Rat) ≤ 2 ^ (64 : Int) := by
    exact_mod_cast h.le
  obtain ⟨whole, hwhole, hwhole₀, hwhole₁⟩ :=
    exists_nearest_le (by norm_num) (by norm_num) (Nat.cast_nonneg _) hsecs
  obtain ⟨part, hpart, hpart₀, hpart₁⟩ :=
    exists_nearest_le (by norm_num) (by norm_num) (by positivity) hsub
  have hsum : whole + part ≤ 2 ^ (65 : Int) := by
    norm_num at hwhole₁ hpart₁ ⊢
    linarith
  obtain ⟨b, hb, -⟩ :=
    exists_nearest_le (by norm_num) (by norm_num) (add_nonneg hwhole₀ hpart₀) hsum
  refine ⟨b, ?_⟩
  have hpart' : nearest (mkRat p.baseBackoff.subsecond Duration.perSecond) = some part := by
    rw [Rat.mkRat_eq_div]
    simpa [Duration.perSecond] using hpart
  simp [baseSeconds, hwhole, hpart', hb]

/-! ### Exponents -/

/-- In the lower half of the numbers of 32 bits the exponent is the number of the retry less one. -/
theorem exponentOf_of_le (hr : 1 ≤ r) (h : r ≤ 2 ^ 31) : exponentOf r = r - 1 := by
  unfold exponentOf
  simp only [Nat.pow_eq, Int.bmod]
  norm_num
  split <;> split <;> omega

/-- In the upper half it is negative: the number of 32 bits is taken for a signed one. -/
theorem exponentOf_of_lt (h : 2 ^ 31 < r) (hr : r < 2 ^ 32) : exponentOf r = r - 1 - 2 ^ 32 := by
  unfold exponentOf
  simp only [Nat.pow_eq, Int.bmod]
  norm_num
  split <;> split <;> omega

theorem powerOfTwo_eq (h : -1024 < k) (h' : k < 1024) : powerOfTwo k = some (2 ^ k) := by
  unfold powerOfTwo
  rw [if_neg (by omega)]
  split
  · rename_i hk
    obtain ⟨n, rfl⟩ := Int.eq_ofNat_of_zero_le hk
    simp
  · obtain ⟨n, rfl⟩ : ∃ n : Nat, k = -n := ⟨(-k).toNat, by omega⟩
    rw [if_neg (by omega)]
    simp [Rat.mkRat_eq_div]

theorem powerOfTwo_eq_none (h : 1024 ≤ k) : powerOfTwo k = none := if_pos h

theorem powerOfTwo_eq_zero (h : k ≤ -1024) : powerOfTwo k = some 0 := by
  unfold powerOfTwo
  rw [if_neg (by omega), if_neg (by omega), if_pos h]

/-- **Powers of two grow with the exponent**; those out of range are nothing, or above all. -/
theorem powerOfTwo_atMost (h : k ≤ k') : AtMost (powerOfTwo k) (powerOfTwo k') := by
  intro b hb
  have hbelow : k' < 1024 := by
    by_contra hge
    rw [powerOfTwo_eq_none (not_lt.1 hge)] at hb
    cases hb
  by_cases hk : -1024 < k
  · rw [powerOfTwo_eq (hk.trans_le h) hbelow] at hb
    obtain rfl := Option.some.inj hb
    exact ⟨2 ^ k, powerOfTwo_eq hk (h.trans_lt hbelow), by positivity,
      zpow_le_zpow_right₀ one_le_two h⟩
  · refine ⟨0, powerOfTwo_eq_zero (not_lt.1 hk), le_rfl, ?_⟩
    by_cases hk' : -1024 < k'
    · rw [powerOfTwo_eq hk' hbelow] at hb
      obtain rfl := Option.some.inj hb
      positivity
    · rw [powerOfTwo_eq_zero (not_lt.1 hk')] at hb
      exact (Option.some.inj hb).le

theorem doubled_eq_some : doubled b r = some v ↔
    ∃ w, powerOfTwo (exponentOf r) = some w ∧ nearest (b * w) = some v := by
  simp only [doubled, Option.bind_eq_bind, Option.bind_eq_some_iff]

/-- A base that is doubled too often is out of range. -/
theorem doubled_of_le (h : 1024 ≤ exponentOf r) : doubled b r = none := by
  rw [doubled, powerOfTwo_eq_none h]
  rfl

/-- A base that is halved too often is nothing. -/
theorem doubled_of_wrapped (h : exponentOf r ≤ -1024) : doubled b r = some 0 :=
  doubled_eq_some.2 ⟨0, powerOfTwo_eq_zero h, by rw [mul_zero, nearest_zero]⟩

/-- **The doubled base grows with the exponent.** -/
theorem doubled_atMost (hb : 0 ≤ b) (h : exponentOf r ≤ exponentOf s) :
    AtMost (doubled b r) (doubled b s) := by
  intro y hy
  obtain ⟨u, hu, hy⟩ := doubled_eq_some.1 hy
  obtain ⟨w, hw, hw₀, hwu⟩ := powerOfTwo_atMost h u hu
  obtain ⟨x, hx, hxy⟩ :=
    nearest_atMost (mul_nonneg hb hw₀) (mul_le_mul_of_nonneg_left hwu hb) y hy
  exact ⟨x, doubled_eq_some.2 ⟨w, hw, hx⟩, hxy⟩

/-! ### The seconds of a retry -/

/-- A base that is out of range makes every wait the longest one. -/
theorem rawSeconds_of_none (h : p.baseSeconds = none) : p.rawSeconds r seed = none := by
  simp [rawSeconds, h]

theorem rawSeconds_of_exponential (hp : p.strategy = .exponential) (hb : p.baseSeconds = some b) :
    p.rawSeconds r seed = doubled b r := by
  unfold rawSeconds
  rw [hb, hp, Option.bind_eq_bind, Option.bind_some]

/-- **The seconds grow with the number of the retry**, for the exponential strategy within each half
of the numbers of 32 bits. -/
theorem rawSeconds_atMost (hplain : p.strategy ≠ .exponentialJitter) (hrs : r ≤ s)
    (hexp : p.strategy = .exponential → exponentOf r ≤ exponentOf s) :
    AtMost (p.rawSeconds r seed) (p.rawSeconds s seed) := by
  cases hb : p.baseSeconds with
  | none =>
    rw [rawSeconds_of_none hb, rawSeconds_of_none hb]
    exact fun b h => nomatch h
  | some b =>
    have hb₀ := baseSeconds_nonneg hb
    cases hp : p.strategy with
    | none =>
      simp only [rawSeconds, hb, hp, Option.bind_eq_bind, Option.bind_some]
      exact fun y hy => ⟨0, rfl, le_rfl, (Option.some.inj hy).le⟩
    | linear =>
      simp only [rawSeconds, hb, hp, Option.bind_eq_bind, Option.bind_some]
      have hcast : (r : Rat) ≤ s := by exact_mod_cast hrs
      exact nearest_atMost (by positivity) (mul_le_mul_of_nonneg_left hcast hb₀)
    | exponential =>
      rw [rawSeconds_of_exponential hp hb, rawSeconds_of_exponential hp hb]
      exact doubled_atMost hb₀ (hexp hp)
    | exponentialJitter => exact absurd hp hplain

/-- **The wait grows within each half of the numbers of 32 bits.** -/
theorem delay_mono (hplain : p.strategy ≠ .exponentialJitter) (hrs : r ≤ s) (hs : s < 2 ^ 32)
    (hhalf : p.strategy = .exponential → s ≤ 2 ^ 31 ∨ 2 ^ 31 < r) :
    p.delay r seed ≤ p.delay s seed := by
  refine waitOf_mono (rawSeconds_atMost hplain (by omega) fun hp => ?_)
  rcases hhalf hp with hlow | hhigh
  · rw [exponentOf_of_le (by omega) (by omega), exponentOf_of_le (by omega) (by omega)]
    omega
  · rw [exponentOf_of_lt (by omega) (by omega), exponentOf_of_lt (by omega) (by omega)]
    omega

/-! ### From one half to the other -/

/-- A quarter of a number of seconds takes less time, unless both take none. -/
theorem toDuration_lt (hq : 0 ≤ q) (hle : 4 * q ≤ q') (h : toDuration q' ≠ .zero) :
    toDuration q < toDuration q' := by
  have hlower := (isNearest_toDuration hq).lower
  have hupper := (isNearest_toDuration (q := q') (by linarith)).upper
  have hpos : 1 ≤ (toDuration q').nanos := by
    refine Nat.pos_of_ne_zero fun hzero => h ?_
    rw [Duration.zero, ← hzero]
  have hpos : (1 : Rat) ≤ (toDuration q').nanos := by exact_mod_cast hpos
  have hlt : ((toDuration q).nanos : Rat) < (toDuration q').nanos := by linarith
  have hlt : (toDuration q).nanos < (toDuration q').nanos := by exact_mod_cast hlt
  exact hlt

/-- In the lower half the base is multiplied, in the upper half it is divided by four at least. -/
theorem four_mul_doubled_le {a c : Rat} (hbase : b = 0 ∨ 2 ^ (-30 : Int) ≤ b) (hr : 1 ≤ r)
    (hr' : r ≤ 2 ^ 31) (hs : 2 ^ 31 < s) (hs' : s < 2 ^ 32) (ha : doubled b s = some a)
    (hc : doubled b r = some c) : 0 ≤ a ∧ 4 * a ≤ c := by
  have hp := double_precision_pos
  have hb₀ : 0 ≤ b := hbase.elim (fun h => h.ge) (le_trans (by positivity))
  obtain ⟨u, hu, ha⟩ := doubled_eq_some.1 ha
  obtain ⟨w, hw, hc⟩ := doubled_eq_some.1 hc
  have hquarter : 0 ≤ u ∧ u ≤ 2 ^ (-2 : Int) := by
    have hexp : exponentOf s ≤ -2 := by
      rw [exponentOf_of_lt hs hs']
      omega
    obtain ⟨u', hu', hbounds⟩ :=
      powerOfTwo_atMost hexp _ (powerOfTwo_eq (by norm_num) (by norm_num))
    obtain rfl := Option.some.inj (hu.symm.trans hu')
    exact hbounds
  have hone : 1 ≤ w := by
    have hexp : 0 ≤ exponentOf r := by
      rw [exponentOf_of_le hr hr']
      omega
    obtain ⟨o, ho, -, how⟩ := powerOfTwo_atMost hexp w hw
    rw [powerOfTwo_eq (by norm_num) (by norm_num)] at ho
    obtain rfl := Option.some.inj ho
    simpa using how
  have ha := ((nearest_eq_some_iff (mul_nonneg hb₀ hquarter.1)).1 ha).1
  have hc := ((nearest_eq_some_iff (mul_nonneg hb₀ (zero_le_one.trans hone))).1 hc).1
  refine ⟨ha.nonneg, ?_⟩
  rcases hbase with rfl | hb
  · rw [zero_mul] at ha
    rw [ha.unique hp double.isRounded_zero, mul_zero]
    exact hc.nonneg
  -- the base itself is so large that a quarter of it has all its bits
  obtain ⟨v, ⟨m, e, hround, rfl⟩, -⟩ :=
    Binary.Format.ofRat_cases (f := double) hp (by decide) hb₀
  have he : -83 < e := by
    have hlt : (2 : Rat) ^ (-30 : Int) < 2 ^ ((53 : Int) + e) := hb.trans_lt hround.lt
    have := (zpow_lt_zpow_iff_right₀ one_lt_two).1 hlt
    omega
  have hscaled : double.IsRounded (b * 2 ^ (-2 : Int)) (m * 2 ^ (e + -2)) :=
    ⟨m, e + -2, hround.scale (by simp only [double]; omega) (by simp only [double]; omega), rfl⟩
  have hlow : a ≤ m * 2 ^ (e + -2) := ha.mono hp hscaled (mul_le_mul_of_nonneg_left hquarter.2 hb₀)
  have hhigh : (m : Rat) * 2 ^ e ≤ c :=
    Binary.Format.IsRounded.mono hp ⟨m, e, hround, rfl⟩ hc (le_mul_of_one_le_right hb₀ hone)
  have hfour : (m : Rat) * 2 ^ e = 4 * (m * 2 ^ (e + -2)) := by
    rw [zpow_add₀ two_ne_zero]
    norm_num
    ring
  linarith

/-- **A wait of the upper half is shorter than one of the lower half**, unless it is the longest one
or the other one is nothing. -/
theorem delay_lt_of_wrapped (hp : p.strategy = .exponential) (hr : r ≤ 2 ^ 31) (hs : 2 ^ 31 < s)
    (hs' : s < 2 ^ 32) (hzero : p.delay r seed ≠ .zero) (hlongest : p.delay s seed ≠ longest) :
    p.delay s seed < p.delay r seed := by
  rw [delay_eq, max_eq_left (by omega : 1 ≤ s)] at hlongest ⊢
  rw [delay_eq] at hzero ⊢
  cases hb : p.baseSeconds with
  | none =>
    rw [rawSeconds_of_none hb] at hlongest
    exact absurd rfl hlongest
  | some b =>
    rw [rawSeconds_of_exponential hp hb] at hlongest hzero ⊢
    rw [rawSeconds_of_exponential hp hb]
    have hshort : waitOf (doubled b s) < longest :=
      Duration.lt_of_le_of_ne (waitOf_le_longest _) hlongest
    cases ha : doubled b s with
    | none =>
      rw [ha] at hlongest
      exact absurd rfl hlongest
    | some a =>
      rw [ha] at hlongest hshort
      cases hc : doubled b (max r 1) with
      | none => exact hshort
      | some c =>
        rw [hc] at hzero
        by_cases hmost : 60 ≤ c
        · rwa [waitOf_of_le hmost]
        have ha₆₀ : ¬ 60 ≤ a := fun h => hlongest (waitOf_of_le h)
        rw [waitOf_of_not_le hmost] at hzero ⊢
        rw [waitOf_of_not_le ha₆₀]
        obtain ⟨ha₀, hfour⟩ := four_mul_doubled_le (baseSeconds_eq_zero_or hb)
          (le_max_right r 1) (by omega) hs hs' ha hc
        exact toDuration_lt ha₀ hfour hzero

/-! ### All retries -/

/-- **Between which retries the wait grows.** No wait is longer than a minute. With any strategy
that does not scatter, the wait before a later retry is at least as long as that before an earlier
one, unless the strategy is the exponential one, the later retry has a number beyond `2 ^ 31` and
the earlier one has not; then it is so only if the later wait is the longest one or the earlier one
is nothing. So the waits grow over all numbers of 32 bits just with the other strategies. -/
theorem delay_grows_iff (p : RetryPolicy) (seed : String)
    (hplain : p.strategy ≠ .exponentialJitter) (hbase : p.baseBackoff.wholeSeconds < 2 ^ 64) :
    (∀ r, p.delay r seed ≤ .seconds 60) ∧
    (∀ r s, r ≤ s → s < 2 ^ 32 → (p.delay r seed ≤ p.delay s seed ↔
      (p.strategy = .exponential → r ≤ 2 ^ 31 → 2 ^ 31 < s →
        p.delay r seed = .zero ∨ p.delay s seed = .seconds 60))) ∧
    ((∀ r s, r ≤ s → s < 2 ^ 32 → p.delay r seed ≤ p.delay s seed) ↔
      p.strategy ≠ .exponential) := by
  refine ⟨fun r => waitOf_le_longest _, fun r s hrs hs => ⟨?_, ?_⟩, ?_, ?_⟩
  · intro hle hp hr hs'
    by_contra hno
    obtain ⟨hzero, hlongest⟩ := not_or.1 hno
    have hlt : p.delay s seed < p.delay r seed :=
      delay_lt_of_wrapped hp hr hs' hs hzero hlongest
    exact absurd hle (Nat.not_le_of_lt hlt)
  · intro hexcept
    by_cases hwraps : p.strategy = .exponential ∧ r ≤ 2 ^ 31 ∧ 2 ^ 31 < s
    · rcases hexcept hwraps.1 hwraps.2.1 hwraps.2.2 with hzero | hlongest
      · rw [hzero]
        exact Nat.zero_le _
      · rw [hlongest]
        exact waitOf_le_longest _
    · refine delay_mono hplain hrs hs fun hp => ?_
      have hside : ¬ (r ≤ 2 ^ 31 ∧ 2 ^ 31 < s) := fun h => hwraps ⟨hp, h⟩
      omega
  · intro hall hp
    -- the base is multiplied by infinity first, and by nothing behind the middle
    obtain ⟨b, hb⟩ := exists_baseSeconds hbase
    have hfirst : p.delay 1025 seed = longest := by
      rw [delay_eq, rawSeconds_of_exponential hp hb, doubled_of_le (by decide)]
      rfl
    have hsecond : p.delay (2 ^ 31 + 1) seed = .zero := by
      rw [delay_eq, rawSeconds_of_exponential hp hb, doubled_of_wrapped (by decide)]
      exact waitOf_zero
    have hle := hall 1025 (2 ^ 31 + 1) (by norm_num) (by norm_num)
    rw [hfirst, hsecond] at hle
    exact absurd hle (by decide)
  · exact fun hp r s hrs hs => delay_mono hplain hrs hs fun h => absurd h hp

/-- A tenth of a second, doubled with every retry. -/
def doubling : RetryPolicy := .plain 3 (.millis 100) .exponential

theorem doubling_delays : doubling.delay 1 "fetch" = .millis 100 ∧
    doubling.delay (2 ^ 32 - 1) "fetch" = .millis 25 := by decide +kernel

/-- The waits grow up to the middle of the numbers of 32 bits. -/
theorem delay_grows_iff_doubling : doubling.delay 1 "fetch" ≤ doubling.delay (2 ^ 31) "fetch" ∧
    ¬ doubling.delay 1 "fetch" ≤ doubling.delay (2 ^ 32 - 1) "fetch" := by
  obtain ⟨-, hpairs, -⟩ := delay_grows_iff doubling "fetch" (by decide) (by decide)
  obtain ⟨hfirst, hlast⟩ := doubling_delays
  constructor
  · exact (hpairs 1 (2 ^ 31) (by norm_num) (by norm_num)).2 fun _ _ h => absurd h (lt_irrefl _)
  · rw [hpairs 1 (2 ^ 32 - 1) (by norm_num) (by norm_num)]
    intro hwraps
    have h := hwraps rfl (by norm_num) (by norm_num)
    rw [hfirst, hlast] at h
    exact absurd h (by decide)

/-- The wait before the last retry that 32 bits can count is a quarter of the first one. -/
theorem last_delay_shrinks : ¬ ∀ (p : RetryPolicy) (seed : String) (r s : Nat),
    p.baseBackoff.wholeSeconds < 2 ^ 64 → p.strategy ≠ .exponentialJitter → r ≤ s → s < 2 ^ 32 →
      p.delay r seed ≤ p.delay s seed ∧ p.delay s seed ≤ .seconds 60 := by
  intro hall
  have hle := (hall doubling "fetch" 1 (2 ^ 32 - 1) (by decide) (by decide) (by norm_num)
    (by norm_num)).1
  rw [doubling_delays.1, doubling_delays.2] at hle
  exact absurd hle (by decide)

end RetryPolicy

end Conductor

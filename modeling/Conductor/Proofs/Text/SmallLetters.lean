import Conductor.Proofs.Text.Fence
import Conductor.Proofs.Text.Lowering
import Mathlib.Data.List.DropRight
import Mathlib.Data.Nat.Bitwise

/-!
# Texts in small letters

What a text in small letters consists of is its own small form, so writing it in small letters again
changes nothing. White space is neither made nor lost on the way, and what was trimmed stays
trimmed.

The rules for small letters are a table of some fourteen hundred letters. That none of their small
forms is in the table again is checked on bit masks, which the kernel compares at once.

* `Text.isSmall_of_mem_lowerChars` : **a text in small letters has small letters only**;
* `Text.lower_lower` : **and is left as it is**;
* `Text.Trimmed` : no white space stands at the two ends of a text;
* `Text.Trimmed.lowerChars` : **the small letters of such a text are such a text.**
-/

namespace Conductor

namespace Text

/-! ### Sets of codes as bit masks -/

/-- The number with a bit for every code of the list. -/
def codeMask : List Nat → Nat
  | [] => 0
  | n :: ns => 2 ^ n ||| codeMask ns

theorem testBit_codeMask {ns : List Nat} {n : Nat} : (codeMask ns).testBit n ↔ n ∈ ns := by
  induction ns with
  | nil => simp [codeMask]
  | cons m ns ih =>
    rw [codeMask, Nat.testBit_or, Nat.testBit_two_pow, Bool.or_eq_true, ih, decide_eq_true_eq,
      List.mem_cons, eq_comm]

/-- **Lists whose masks have no bit in common have no code in common.** -/
theorem notMem_of_codeMask {ms ns : List Nat} (h : codeMask ms &&& codeMask ns = 0) {n : Nat}
    (hn : n ∈ ms) : n ∉ ns := by
  intro hn'
  have hbit : (codeMask ms &&& codeMask ns).testBit n = true := by
    rw [Nat.testBit_and, testBit_codeMask.2 hn, testBit_codeMask.2 hn']
    rfl
  rw [h, Nat.zero_testBit] at hbit
  cases hbit

/-! ### Letters that are their own small form -/

/-- The codes that a run gives a small letter for. -/
def LowerRun.codes (r : LowerRun) : List Nat :=
  List.range' r.first ((r.last - r.first) / r.step + 1) r.step

theorem LowerRun.mem_codes {r : LowerRun} {n : Nat} (h : r.holds n = true) : n ∈ r.codes := by
  simp only [LowerRun.holds, Bool.and_eq_true, decide_eq_true_eq, beq_iff_eq] at h
  obtain ⟨⟨hfirst, hlast⟩, hstep⟩ := h
  refine List.mem_range'.2 ⟨(n - r.first) / r.step, ?_, ?_⟩
  · exact Nat.lt_succ_of_le (Nat.div_le_div_right (Nat.sub_le_sub_right hlast r.first))
  · have hdiv := Nat.div_add_mod (n - r.first) r.step
    omega

/-- The code of the small letter that a run gives. -/
def LowerRun.small (r : LowerRun) (n : Nat) : Nat := ((n : Int) + r.shift).toNat

/-- The codes of the letters that have another small form. -/
def capitalCodes : List Nat := 0x130 :: lowerRuns.flatMap (·.codes)

/-- The codes of their small forms. -/
def smallCodes : List Nat := 0x69 :: 0x307 :: lowerRuns.flatMap fun r => r.codes.map r.small

theorem smallCodes_notMem {n : Nat} (h : n ∈ smallCodes) : n ∉ capitalCodes ∧ n ∉ blankCodes := by
  have hapart : codeMask smallCodes &&& codeMask (capitalCodes ++ blankCodes) = 0 := by
    decide +kernel
  exact not_or.1 (mt List.mem_append.2 (notMem_of_codeMask hapart h))

theorem isValidChar_of_mem_smallCodes : ∀ n ∈ smallCodes, n.isValidChar := by
  decide +kernel

theorem toNat_ofNat_mem_smallCodes {n : Nat} (h : n ∈ smallCodes) :
    (Char.ofNat n).toNat ∈ smallCodes := by
  rw [Char.ofNat, dif_pos (isValidChar_of_mem_smallCodes n h)]
  exact h

/-- A run leads from codes of capitals to codes of small letters. -/
theorem LowerRun.leads {r : LowerRun} (hr : r ∈ lowerRuns) {n : Nat} (h : r.holds n = true) :
    n ∈ capitalCodes ∧ ∀ d ∈ [Char.ofNat (r.small n)], d.toNat ∈ smallCodes := by
  have hcode := r.mem_codes h
  have hcapital : n ∈ lowerRuns.flatMap (·.codes) := List.mem_flatMap.2 ⟨r, hr, hcode⟩
  have hsmall : r.small n ∈ lowerRuns.flatMap fun r => r.codes.map r.small :=
    List.mem_flatMap.2 ⟨r, hr, List.mem_map_of_mem hcode⟩
  refine ⟨List.mem_cons_of_mem _ hcapital, List.forall_mem_singleton.2 ?_⟩
  exact toNat_ofNat_mem_smallCodes (List.mem_cons_of_mem _ (List.mem_cons_of_mem _ hsmall))

/-- The character is its own small form. -/
def IsSmall (c : Char) : Prop := lowerChar c = [c]

/-- A character is its own small form, or the rules speak of it and of what it becomes. -/
theorem lowerChar_cases (c : Char) :
    IsSmall c ∨ c.toNat ∈ capitalCodes ∧ ∀ d ∈ lowerChar c, d.toNat ∈ smallCodes := by
  rw [IsSmall, lowerChar]
  split
  · split
    · -- the capitals of ASCII are the first run of the table
      rename_i hrange
      change 0x41 ≤ c.toNat ∧ c.toNat ≤ 0x5A at hrange
      have hr : ⟨0x41, 0x5A, 1, 32⟩ ∈ lowerRuns := List.mem_cons_self
      have hholds : LowerRun.holds ⟨0x41, 0x5A, 1, 32⟩ c.toNat = true := by
        simpa [LowerRun.holds, Nat.mod_one] using hrange
      exact .inr (LowerRun.leads hr hholds)
    · exact .inl rfl
  · split
    · rename_i hdotted
      refine .inr ⟨hdotted ▸ List.mem_cons_self, ?_⟩
      rw [List.forall_mem_cons, List.forall_mem_singleton]
      exact ⟨List.mem_cons_self, List.mem_cons_of_mem _ List.mem_cons_self⟩
    · split
      · rename_i r hfind
        have hholds := List.find?_some hfind
        exact .inr (r.leads (List.mem_of_find?_eq_some hfind) hholds)
      · exact .inl rfl

theorem isSmall_of_notMem {c : Char} (h : c.toNat ∉ capitalCodes) : IsSmall c :=
  (lowerChar_cases c).resolve_right fun hc => h hc.1

/-- **A small form consists of small letters**, and of white space only if it is that of white
space. -/
theorem of_mem_lowerChar {c d : Char} (h : d ∈ lowerChar c) :
    IsSmall d ∧ (isBlank d = true → d = c) := by
  rcases lowerChar_cases c with hc | ⟨-, hsmall⟩
  · have hd : d ∈ [c] := hc ▸ h
    obtain rfl := List.mem_singleton.1 hd
    exact ⟨hc, fun _ => rfl⟩
  · obtain ⟨hcapital, hblank⟩ := smallCodes_notMem (hsmall d h)
    exact ⟨isSmall_of_notMem hcapital, fun hd => absurd (toNat_mem_blankCodes hd) hblank⟩

theorem IsSmall.toNat_ne {c : Char} (h : IsSmall c) : c.toNat ≠ 0x3A3 := by
  intro hc
  have hsigma : IsSmall (Char.ofNat 0x3A3) := by rwa [← hc, Char.ofNat_toNat]
  exact absurd hsigma (by unfold IsSmall; decide)

theorem isSmall_of_mem_lowerAfter {before cs : List Char} {d : Char}
    (h : d ∈ lowerAfter before cs) : IsSmall d := by
  induction cs generalizing before with
  | nil => cases h
  | cons c rest ih =>
    rw [lowerAfter, List.mem_append] at h
    rcases h with h | h
    · split at h
      · -- both forms of the sigma are small
        rw [List.mem_singleton] at h
        subst h
        split <;> rfl
      · exact (of_mem_lowerChar h).1
    · exact ih h

/-- **A text in small letters has small letters only.** -/
theorem isSmall_of_mem_lowerChars {cs : List Char} {d : Char} (h : d ∈ lowerChars cs) :
    IsSmall d :=
  isSmall_of_mem_lowerAfter h

/-- Small letters are left as they are, whatever stands before them. -/
theorem lowerAfter_of_isSmall {before cs : List Char} (h : ∀ c ∈ cs, IsSmall c) :
    lowerAfter before cs = cs := by
  induction cs generalizing before with
  | nil => rfl
  | cons c rest ih =>
    have hc := h c List.mem_cons_self
    rw [lowerAfter, if_neg hc.toNat_ne, hc, ih fun d hd => h d (List.mem_cons_of_mem c hd)]
    rfl

theorem lowerChars_of_isSmall {cs : List Char} (h : ∀ c ∈ cs, IsSmall c) : lowerChars cs = cs :=
  lowerAfter_of_isSmall h

/-- **A text in small letters is left as it is.** -/
theorem lower_lower (s : String) : lower (lower s) = lower s := by
  rw [lower, lower, String.toList_ofList, lowerChars_of_isSmall fun _ => isSmall_of_mem_lowerChars]

/-! ### Texts without white space at their ends -/

/-- No white space stands at the two ends. -/
structure Trimmed (cs : List Char) : Prop where
  head : ∀ c ∈ cs.head?, isBlank c = false
  last : ∀ c ∈ cs.getLast?, isBlank c = false

variable {cs : List Char}

/-- From a text without white space at its ends nothing is taken. -/
theorem Trimmed.trimChars_eq (h : Trimmed cs) : trimChars cs = cs := by
  rw [trimChars, trimStartChars_of_head h.head, trimEndChars_of_last h.last]

theorem isBlank_head?_dropWhile :
    ∀ c ∈ (cs.dropWhile isBlank).head?, isBlank c = false := by
  intro c hc
  have hne := List.ne_nil_of_mem (List.mem_of_mem_head? hc)
  rw [← List.head_of_mem_head? hc]
  exact List.head_dropWhile_not isBlank hne

/-- **Trimming takes all the white space at the ends.** -/
theorem trimmed_trimChars (cs : List Char) : Trimmed (trimChars cs) where
  head c hc := by
    -- what is taken from the end leaves the first character
    obtain ⟨taken, htaken⟩ : trimChars cs <+: trimStartChars cs :=
      List.rdropWhile_prefix isBlank _
    have hfirst : c ∈ (trimStartChars cs).head? := by
      rw [← htaken, List.head?_append, Option.mem_def.1 hc]
      rfl
    exact isBlank_head?_dropWhile c hfirst
  last := by
    rw [trimChars, trimEndChars, List.getLast?_reverse]
    exact isBlank_head?_dropWhile

variable {f : Char → List Char}

theorem isBlank_head?_flatMap (hne : ∀ c, f c ≠ [])
    (hf : ∀ c, ∀ d ∈ f c, isBlank d = true → isBlank c = true)
    (h : ∀ c ∈ cs.head?, isBlank c = false) : ∀ d ∈ (cs.flatMap f).head?, isBlank d = false := by
  intro d hd
  cases cs with
  | nil => cases hd
  | cons c cs =>
    rw [List.flatMap_cons, List.head?_append_of_ne_nil _ (hne c)] at hd
    rw [← Bool.not_eq_true]
    intro hblank
    exact Bool.false_ne_true
      ((h c rfl).symm.trans (hf c d (List.mem_of_mem_head? hd) hblank))

/-- **Characters may be exchanged for others** that are no white space unless they were. -/
theorem Trimmed.flatMap (h : Trimmed cs) (hne : ∀ c, f c ≠ [])
    (hf : ∀ c, ∀ d ∈ f c, isBlank d = true → isBlank c = true) : Trimmed (cs.flatMap f) where
  head := isBlank_head?_flatMap hne hf h.head
  last := by
    rw [← List.head?_reverse, List.reverse_flatMap]
    refine isBlank_head?_flatMap (fun c => ?_) (fun c d hd => ?_) ?_
    · simpa using hne c
    · exact hf c d (by simpa using hd)
    · simpa using h.last

theorem Trimmed.map {g : Char → Char} (h : Trimmed cs)
    (hg : ∀ c, isBlank (g c) = true → isBlank c = true) : Trimmed (cs.map g) := by
  rw [List.map_eq_flatMap]
  refine h.flatMap (fun c => List.cons_ne_nil _ _) fun c d hd => ?_
  rw [List.mem_singleton.1 hd]
  exact hg c

theorem isBlank_unifySigma (c : Char) : isBlank (unifySigma c) = isBlank c := by
  unfold unifySigma
  split
  · rename_i hc
    subst hc
    rfl
  · rfl

theorem lowerChar_ne_nil (c : Char) : lowerChar c ≠ [] := by
  rw [lowerChar]
  repeat' split
  all_goals exact List.cons_ne_nil _ _

theorem smallForm_ne_nil (c : Char) : smallForm c ≠ [] := by
  rw [smallForm]
  split
  · exact List.cons_ne_nil _ _
  · exact fun h => lowerChar_ne_nil c (List.map_eq_nil_iff.1 h)

/-- Only white space becomes white space. -/
theorem isBlank_of_mem_smallForm {c d : Char} (h : d ∈ smallForm c) (hd : isBlank d = true) :
    isBlank c = true := by
  unfold smallForm at h
  split at h
  · rw [List.mem_singleton] at h
    subst h
    exact absurd hd (by decide)
  · obtain ⟨e, he, rfl⟩ := List.mem_map.1 h
    rw [isBlank_unifySigma] at hd
    rwa [← (of_mem_lowerChar he).2 hd]

/-- **The small letters of a trimmed text are trimmed.** -/
theorem Trimmed.lowerChars (h : Trimmed cs) : Trimmed (lowerChars cs) := by
  -- with one small sigma for both, the text is written in small letters one by one
  have hforms : Trimmed (smallForms cs) :=
    h.flatMap smallForm_ne_nil fun _ _ => isBlank_of_mem_smallForm
  rw [← map_lowerAfter []] at hforms
  constructor
  · intro c hc
    rw [← isBlank_unifySigma]
    exact hforms.head _ (by rw [List.head?_map]; exact Option.mem_map_of_mem _ hc)
  · intro c hc
    rw [← isBlank_unifySigma]
    exact hforms.last _ (by rw [List.getLast?_map]; exact Option.mem_map_of_mem _ hc)

end Text

end Conductor

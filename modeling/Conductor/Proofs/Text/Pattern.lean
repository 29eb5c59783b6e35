import Conductor.Proofs.Text.Fence
import Mathlib.Data.List.TakeWhile

/-!
# Patterns

A pattern is a row of parts that together take a whole text. A part takes characters of a class, and
it has an order in which it tries how many. The choice that counts is the first one with which the
parts behind it succeed, so that a part in front decides before those behind it.

`stripFence` looks for the fences directly. What it finds is what the pattern of a fenced text
captures: three backticks, the name of a language, spaces and tabs, a line end that may be missing,
the text, white space, and three backticks.

* `Text.pieces?` : what each part takes, by the first choices that succeed;
* `Text.Steady.pieces?_most` : **a part takes all it can**, if the parts behind it do not need a
  character of its class;
* `Text.Closes` : parts that fail exactly on the characters that end with no fence, and so need no
  character but backticks;
* `Text.pieces?_enclosed` : **as little as possible is taken before the closing fence**;
* `Text.captured?_eq` : what the pattern captures is what stands between the two fences;
* `Text.stripFenceChars_eq_captured` : **what `stripFence` finds is what the pattern captures.**
-/

namespace Conductor

namespace Text

/-! ### Parts and choices -/

/-- What a part takes from the start of the characters that are left, and what it tries first. -/
inductive Part where
  /-- These characters. -/
  | literal (t : List Char)
  /-- One character of a class, or else none. -/
  | optional (p : Char → Bool)
  /-- As many characters of a class as there are, or else fewer. -/
  | most (p : Char → Bool)
  /-- No character of a class, or else more. -/
  | fewest (p : Char → Bool)

/-- The ways to take characters of a class from the start, and what is left; the fewest first. -/
def splits (p : Char → Bool) : List Char → List (List Char × List Char)
  | [] => [([], [])]
  | c :: cs => ([], c :: cs) :: if p c then (splits p cs).map fun s => (c :: s.1, s.2) else []

/-- The choices of a part in the order in which they are tried: what it takes, and what is left. -/
def Part.choices : Part → List Char → List (List Char × List Char)
  | .literal t, cs => if t.isPrefixOf cs then [(t, cs.drop t.length)] else []
  | .optional p, c :: cs => if p c then [([c], cs), ([], c :: cs)] else [([], c :: cs)]
  | .optional _, [] => [([], [])]
  | .most p, cs => (splits p cs).reverse
  | .fewest p, cs => splits p cs

/-- What the parts take of the characters when nothing may be left, by the first choices with which
all of them succeed. -/
def pieces? : List Part → List Char → Option (List (List Char))
  | [], [] => some []
  | [], _ :: _ => none
  | part :: parts, cs =>
    (part.choices cs).findSome? fun s => (pieces? parts s.2).map (s.1 :: ·)

/-- The name of a language, a gap, and a line end. -/
def opening : List Part :=
  [.most isInfoChar, .most isGap, .optional (· == '\r'), .optional (· == '\n')]

/-- White space and a fence. -/
def closing : List Part := [.most isBlank, .literal fence]

/-- Any characters, and behind them white space and a fence. -/
def enclosed : List Part := .fewest (fun _ => true) :: closing

/-- The parts of a text between fences. -/
def fencePattern : List Part := .literal fence :: (opening ++ enclosed)

/-- What stands between the line of the opening fence and the white space before the closing one. -/
def captured? (cs : List Char) : Option (List Char) :=
  match pieces? fencePattern cs with
  | some [_, _, _, _, _, body, _, _] => some body
  | _ => none

variable {parts : List Part} {p : Char → Bool} {c : Char} {cs body : List Char}

/-! ### Parts that take all they can -/

/-- Where the parts fail behind a character of the class, they fail in front of it too. -/
def Steady (p : Char → Bool) (parts : List Part) : Prop :=
  ∀ ⦃c cs⦄, p c = true → pieces? parts cs = none → pieces? parts (c :: cs) = none

/-- The first character, if it is of the class. -/
def one (p : Char → Bool) : List Char → List Char
  | c :: _ => if p c then [c] else []
  | [] => []

/-- The characters behind a first one of the class. -/
def behindOne (p : Char → Bool) : List Char → List Char
  | c :: cs => if p c then cs else c :: cs
  | [] => []

namespace Steady

theorem of_dropWhile (h : Steady p parts) (hcs : pieces? parts (cs.dropWhile p) = none) :
    pieces? parts cs = none := by
  induction cs with
  | nil => exact hcs
  | cons c cs ih =>
    by_cases hc : p c = true
    · rw [List.dropWhile_cons_of_pos hc] at hcs
      exact h hc (ih hcs)
    · rwa [List.dropWhile_cons_of_neg hc] at hcs

/-- **A part takes as many characters as possible**: if the parts behind it do not succeed then,
they do not succeed behind fewer. -/
theorem pieces?_most (h : Steady p parts) :
    pieces? (.most p :: parts) cs =
      (pieces? parts (cs.dropWhile p)).map (cs.takeWhile p :: ·) := by
  suffices hsplits : ∀ f : List Char → List (List Char) → List (List Char),
      (splits p cs).reverse.findSome? (fun s => (pieces? parts s.2).map (f s.1)) =
        (pieces? parts (cs.dropWhile p)).map (f (cs.takeWhile p)) from hsplits List.cons
  induction cs with
  | nil =>
    intro f
    simp only [splits, List.reverse_singleton, List.findSome?_singleton, List.dropWhile_nil,
      List.takeWhile_nil]
  | cons c cs ih =>
    intro f
    by_cases hc : p c = true
    · have hrest := ih fun u => f (c :: u)
      simp only [splits, if_pos hc, List.reverse_cons, ← List.map_reverse, List.findSome?_append,
        List.findSome?_map, Function.comp_def, hrest, List.findSome?_singleton,
        List.dropWhile_cons_of_pos hc, List.takeWhile_cons_of_pos hc]
      cases hall : pieces? parts (cs.dropWhile p) with
      | some ps => rfl
      | none =>
        rw [h hc (h.of_dropWhile hall)]
        rfl
    · simp only [splits, if_neg hc, List.reverse_singleton, List.findSome?_singleton,
        List.dropWhile_cons_of_neg hc, List.takeWhile_cons_of_neg hc]

theorem pieces?_optional (h : Steady p parts) :
    pieces? (.optional p :: parts) cs =
      (pieces? parts (behindOne p cs)).map (one p cs :: ·) := by
  cases cs with
  | nil => exact List.findSome?_singleton
  | cons c cs =>
    by_cases hc : p c = true
    · simp only [pieces?, Part.choices, if_pos hc, List.findSome?_cons, List.findSome?_nil, one,
        behindOne]
      cases hone : pieces? parts cs with
      | some ps => rfl
      | none =>
        rw [h hc hone]
        rfl
    · simp only [pieces?, Part.choices, if_neg hc, List.findSome?_singleton, one, behindOne]

end Steady

/-! ### Parts that find the closing fence -/

/-- The parts fail exactly on the characters that do not end with a fence. -/
def Closes (parts : List Part) : Prop := ∀ cs, pieces? parts cs = none ↔ ¬ fence <:+ cs

/-- A character that is no backtick does not belong to the fence at the end. -/
theorem fence_suffix_cons (hc : c ≠ '`') : fence <:+ c :: cs ↔ fence <:+ cs := by
  rw [List.suffix_cons_iff]
  exact or_iff_right fun h => hc (List.cons.inj h).1.symm

theorem ne_of_holds (hp : p '`' = false) (hc : p c = true) : c ≠ '`' := by
  rintro rfl
  exact Bool.false_ne_true (hp.symm.trans hc)

theorem fence_suffix_dropWhile (hp : p '`' = false) : fence <:+ cs.dropWhile p ↔ fence <:+ cs := by
  induction cs with
  | nil => rfl
  | cons c cs ih =>
    by_cases hc : p c = true
    · rw [List.dropWhile_cons_of_pos hc, ih, fence_suffix_cons (ne_of_holds hp hc)]
    · rw [List.dropWhile_cons_of_neg hc]

namespace Closes

theorem steady (h : Closes parts) (hp : p '`' = false) : Steady p parts := by
  intro c cs hc hcs
  exact (h _).2 fun hfence => (h cs).1 hcs ((fence_suffix_cons (ne_of_holds hp hc)).1 hfence)

theorem most (h : Closes parts) (hp : p '`' = false) : Closes (.most p :: parts) := by
  intro cs
  rw [(h.steady hp).pieces?_most, Option.map_eq_none_iff, h, fence_suffix_dropWhile hp]

theorem optional (h : Closes parts) (hp : p '`' = false) : Closes (.optional p :: parts) := by
  intro cs
  rw [(h.steady hp).pieces?_optional, Option.map_eq_none_iff, h]
  cases cs with
  | nil => rfl
  | cons c cs =>
    by_cases hc : p c = true
    · rw [behindOne, if_pos hc, fence_suffix_cons (ne_of_holds hp hc)]
    · rw [behindOne, if_neg hc]

end Closes

/-! ### Between the fences -/

theorem pieces?_fence :
    pieces? [.literal fence] cs = if cs = fence then some [fence] else none := by
  by_cases h : cs = fence
  · rw [if_pos h, h]
    rfl
  · rw [if_neg h, pieces?, Part.choices]
    split
    · rename_i hpre
      obtain ⟨rest, rfl⟩ := List.isPrefixOf_iff_prefix.1 hpre
      rw [List.drop_left, List.findSome?_singleton]
      cases rest with
      | nil => exact absurd (List.append_nil fence) h
      | cons c rest => rfl
    · rfl

theorem pieces?_closing :
    pieces? closing cs =
      if cs.dropWhile isBlank = fence then some [cs.takeWhile isBlank, fence] else none := by
  have hsteady : Steady isBlank [.literal fence] := by
    intro c cs hc _
    rw [pieces?_fence, if_neg]
    rintro h
    cases h
    cases hc
  rw [closing, hsteady.pieces?_most, pieces?_fence]
  split <;> rfl

/-- Characters before a fence that are not all white space are more than white space. -/
theorem dropWhile_append_fence (h : ¬ ∀ d ∈ body, isBlank d = true) :
    (body ++ fence).dropWhile isBlank ≠ fence := by
  rw [List.dropWhile_append, if_neg]
  · intro heq
    exact h (List.dropWhile_eq_nil_iff.1 (List.append_left_eq_self.1 heq))
  · rwa [List.isEmpty_iff, List.dropWhile_eq_nil_iff]

theorem trimEndChars_of_blank (h : ∀ d ∈ body, isBlank d = true) : trimEndChars body = [] := by
  have hnil : trimEndChars ([] ++ body) = trimEndChars [] := trimEndChars_append h
  exact hnil

theorem trimEndChars_cons (h : ¬ ∀ d ∈ c :: body, isBlank d = true) :
    trimEndChars (c :: body) = c :: trimEndChars body := by
  rw [trimEndChars, List.reverse_cons, List.dropWhile_append]
  split
  · rename_i hempty
    have hall : ∀ d ∈ body, isBlank d = true := fun d hd =>
      List.dropWhile_eq_nil_iff.1 (List.isEmpty_iff.1 hempty) d (List.mem_reverse.2 hd)
    have hc : ¬ isBlank c = true := fun hc => h (List.forall_mem_cons.2 ⟨hc, hall⟩)
    rw [List.dropWhile_cons_of_neg hc, trimEndChars_of_blank hall, List.reverse_singleton]
  · rw [List.reverse_append, trimEndChars]
    rfl

/-- **As little as possible is taken before the closing fence**: the white space before the fence is
left to the next part. -/
theorem pieces?_enclosed (body : List Char) : ∃ blanks, pieces? enclosed (body ++ fence) =
    some [trimEndChars body, blanks, fence] := by
  suffices hsplits : ∃ blanks, ∀ f : List Char → List (List Char) → List (List Char),
      (splits (fun _ => true) (body ++ fence)).findSome?
          (fun s => (pieces? closing s.2).map (f s.1)) =
        some (f (trimEndChars body) [blanks, fence]) from
    hsplits.imp fun blanks h => h List.cons
  induction body with
  | nil => exact ⟨[], fun f => rfl⟩
  | cons c body ih =>
    by_cases hall : ∀ d ∈ c :: body, isBlank d = true
    · -- nothing but white space: the body is empty
      refine ⟨(c :: body ++ fence).takeWhile isBlank, fun f => ?_⟩
      have hdrop : (c :: body ++ fence).dropWhile isBlank = fence :=
        List.dropWhile_append_of_pos hall
      rw [trimEndChars_of_blank hall, List.cons_append, splits, List.findSome?_cons,
        ← List.cons_append, pieces?_closing, if_pos hdrop]
      rfl
    · obtain ⟨blanks, hrest⟩ := ih
      refine ⟨blanks, fun f => ?_⟩
      have hfail : pieces? closing (c :: (body ++ fence)) = none := by
        rw [← List.cons_append, pieces?_closing, if_neg (dropWhile_append_fence hall)]
      rw [trimEndChars_cons hall, List.cons_append, splits, if_pos rfl, List.findSome?_cons,
        List.findSome?_map, hfail]
      exact hrest fun u => f (c :: u)

theorem append_of_mem_splits {s : List Char × List Char} (h : s ∈ splits p cs) :
    s.1 ++ s.2 = cs := by
  induction cs generalizing s with
  | nil =>
    rw [List.mem_singleton.1 h]
    rfl
  | cons c cs ih =>
    rw [splits, List.mem_cons] at h
    rcases h with rfl | h
    · rfl
    · split at h
      · obtain ⟨t, ht, rfl⟩ := List.mem_map.1 h
        exact congrArg (c :: ·) (ih ht)
      · cases h

theorem closes_enclosed : Closes enclosed := by
  intro cs
  constructor
  · rintro hnone ⟨body, rfl⟩
    obtain ⟨blanks, hsome⟩ := pieces?_enclosed body
    cases hnone.symm.trans hsome
  · intro hfence
    refine List.findSome?_eq_none_iff.2 fun s hs => ?_
    rw [Option.map_eq_none_iff, pieces?_closing, if_neg]
    intro hdrop
    have hsuffix : s.2 <:+ cs := ⟨s.1, append_of_mem_splits hs⟩
    exact hfence (hdrop ▸ (List.dropWhile_suffix isBlank).trans hsuffix)

/-! ### The whole pattern -/

theorem dropLineEnd_eq : dropLineEnd cs = behindOne (· == '\n') (behindOne (· == '\r') cs) := by
  unfold dropLineEnd
  split
  · rfl
  · rename_i rest hrest
    cases rest with
    | nil => rfl
    | cons c rest =>
      have hc : ¬ (c == '\n') = true := fun hc =>
        hrest rest (congrArg (· :: rest) (beq_iff_eq.1 hc))
      exact (if_neg hc).symm
  · rfl
  · rename_i hreturn hfeed
    cases cs with
    | nil => rfl
    | cons c cs =>
      have hc : ¬ (c == '\r') = true := fun hc => hreturn cs (congrArg (· :: cs) (beq_iff_eq.1 hc))
      have hc' : ¬ (c == '\n') = true := fun hc => hfeed cs (congrArg (· :: cs) (beq_iff_eq.1 hc))
      rw [behindOne, if_neg hc]
      exact (if_neg hc').symm

theorem pieces?_opening (cs : List Char) : ∃ info gap cr lf,
    pieces? (opening ++ enclosed) cs =
      (pieces? enclosed
        (dropLineEnd ((cs.dropWhile isInfoChar).dropWhile isGap))).map
        fun ps => info :: gap :: cr :: lf :: ps := by
  have hfeed := closes_enclosed.optional (p := (· == '\n')) (by decide)
  have hreturn := hfeed.optional (p := (· == '\r')) (by decide)
  have hgap := hreturn.most (p := isGap) (by decide)
  have hinfo : pieces? (opening ++ enclosed) cs = _ :=
    (hgap.steady (by decide)).pieces?_most
  rw [hinfo, (hreturn.steady (by decide)).pieces?_most, (hfeed.steady (by decide)).pieces?_optional,
    (closes_enclosed.steady (by decide)).pieces?_optional, ← dropLineEnd_eq, Option.map_map,
    Option.map_map, Option.map_map]
  exact ⟨_, _, _, _, rfl⟩

/-- **Between the line of the opening fence and the closing fence stands what the pattern
captures**, with white space behind it. -/
theorem captured?_eq : captured? cs = (afterOpening? cs >>= beforeClosing?).map trimEndChars := by
  by_cases hpre : fence.isPrefixOf cs = true
  · obtain ⟨info, gap, cr, lf, hopening⟩ := pieces?_opening (cs.drop 3)
    have hwhole : pieces? fencePattern cs =
        (pieces? (opening ++ enclosed) (cs.drop 3)).map (fence :: ·) := by
      rw [fencePattern, pieces?, Part.choices, if_pos hpre]
      exact List.findSome?_singleton
    rw [captured?, hwhole, hopening, afterOpening?, if_pos hpre]
    change _ = (beforeClosing? _).map _
    generalize dropLineEnd (((cs.drop 3).dropWhile isInfoChar).dropWhile isGap) = inner
    by_cases hsuffix : fence <:+ inner
    · obtain ⟨body, rfl⟩ := hsuffix
      obtain ⟨blanks, hbody⟩ := pieces?_enclosed body
      rw [hbody, beforeClosing?_fenced]
      rfl
    · rw [(closes_enclosed inner).2 hsuffix, beforeClosing?,
        if_neg fun h => hsuffix (List.isSuffixOf_iff_suffix.1 h)]
      rfl
  · have hwhole : pieces? fencePattern cs = none := by
      rw [fencePattern, pieces?, Part.choices, if_neg hpre]
      rfl
    rw [captured?, hwhole, afterOpening?, if_neg hpre]
    rfl

theorem trimChars_append_blank {after : List Char} (h : ∀ c ∈ after, isBlank c = true) :
    trimChars (cs ++ after) = trimChars cs := by
  rw [trimChars, trimStartChars, List.dropWhile_append]
  split
  · rename_i hempty
    have hall : after.dropWhile isBlank = [] := List.dropWhile_eq_nil_iff.2 h
    rw [hall, trimChars, trimStartChars, List.isEmpty_iff.1 hempty]
  · exact trimEndChars_append h

theorem trimChars_trimEndChars : trimChars (trimEndChars body) = trimChars body := by
  have hsplit : trimEndChars body ++ (body.reverse.takeWhile isBlank).reverse = body := by
    rw [trimEndChars, ← List.reverse_append, List.takeWhile_append_dropWhile, List.reverse_reverse]
  have hblank : ∀ c ∈ (body.reverse.takeWhile isBlank).reverse, isBlank c = true :=
    fun c hc => List.mem_takeWhile_imp (List.mem_reverse.1 hc)
  exact (trimChars_append_blank hblank).symm.trans (congrArg trimChars hsplit)

/-- **What `stripFence` finds is what the pattern captures**, without white space at its ends. -/
theorem stripFenceChars_eq_captured :
    stripFenceChars cs = ((captured? (trimChars cs)).map trimChars).getD (trimChars cs) := by
  rw [stripFenceChars, captured?_eq]
  cases afterOpening? (trimChars cs) >>= beforeClosing? with
  | none => rfl
  | some body => exact trimChars_trimEndChars.symm

end Text

end Conductor

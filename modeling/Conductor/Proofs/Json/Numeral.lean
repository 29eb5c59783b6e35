import Conductor.Json.Reader
import Conductor.Proofs.Number.Digits
import Mathlib.Tactic.SplitIfs

/-!
# Numerals that are read back

Reading a number stops at the first character that cannot go on with it. A number that is read back
from its numeral alone is therefore read in the same way where the numeral stands inside a text.
That integers of at most 64 bits are read back is proved; that a binary number is, is a property
`Number.ReadsBack` of the number, because it rests on the numeral being long enough.

* `Json.readNumber_append` : a number that is read to the end of a text is also read with something
  else behind it;
* `Json.numeralChars_render` : a numeral has no white space and no brackets;
* `Json.readValue_number` : **a number that is read back from its numeral is read wherever the
  numeral stands;**
* `Number.readsBack_int` : **an integer of at most 64 bits is read back.**
-/

namespace Conductor

namespace Json

open Decimal

/-- What stands behind a numeral does not go on with it. -/
def EndsNumeral (rest : List Char) : Prop :=
  ∀ c ∈ rest.head?, isDigit c = false ∧ c ≠ '.' ∧ c ≠ 'e' ∧ c ≠ 'E'

variable {negative isPlain : Bool} {whole fraction cs rest : List Char} {m m' m₂ : Mark}
  {n : Number}

theorem EndsNumeral.not_digit (h : EndsNumeral rest) : ∀ c ∈ rest.head?, isDigit c = false :=
  fun c hc => (h c hc).1

variable (cs) in
/-- A run of digits is the same with something else behind it. -/
theorem digits_append (hrest : ∀ c ∈ rest.head?, isDigit c = false) :
    (cs ++ rest).takeWhile isDigit = cs.takeWhile isDigit ∧
      (cs ++ rest).dropWhile isDigit = cs.dropWhile isDigit ++ rest := by
  induction cs with
  | nil => simpa using takeWhile_run (List.forall_mem_nil _) hrest
  | cons c cs ih =>
    rw [List.cons_append, List.takeWhile_cons, List.takeWhile_cons, List.dropWhile_cons,
      List.dropWhile_cons]
    split
    · exact ⟨by rw [ih.1], ih.2⟩
    · exact ⟨rfl, rfl⟩

/-! ### Exponents -/

/-- Reads the digits of an exponent behind its sign. -/
def readExponentDigits (negative : Bool) (m : Mark) (cs : List Char) :
    Except Misreading (Bool × List Char × Cursor) :=
  match cs with
  | [] => .error ⟨.endInValue, m⟩
  | c :: _ =>
    if isDigit c then
      .ok (negative, cs.takeWhile isDigit,
        ⟨cs.dropWhile isDigit, m.along (cs.takeWhile isDigit).length⟩)
    else .error ⟨.invalidNumber, m.pastByte c⟩

theorem readExponent_minus :
    readExponent m ('-' :: cs) = readExponentDigits true (m.along 1) cs := by
  cases cs <;> rfl

theorem readExponent_plus :
    readExponent m ('+' :: cs) = readExponentDigits false (m.along 1) cs := by
  cases cs <;> rfl

theorem readExponent_unsigned {c : Char} (hm : c ≠ '-') (hp : c ≠ '+') :
    readExponent m (c :: cs) = readExponentDigits false m (c :: cs) := by
  unfold readExponent
  split
  rename_i x sign m₁ body heq
  split at heq
  · simp_all
  · simp_all
  · cases heq
    rfl

theorem readExponentDigits_append {sign : Bool} {ds : List Char}
    (h : readExponentDigits sign m cs = .ok (negative, ds, ⟨[], m'⟩)) (hrest : EndsNumeral rest)
    (m₂ : Mark) :
    ∃ m₂', readExponentDigits sign m₂ (cs ++ rest) = .ok (negative, ds, ⟨rest, m₂'⟩) := by
  cases cs with
  | nil => cases h
  | cons c cs =>
    simp only [readExponentDigits] at h
    split_ifs at h with hc
    simp only [Except.ok.injEq, Prod.mk.injEq, Cursor.mk.injEq] at h
    obtain ⟨rfl, rfl, hdrop, -⟩ := h
    obtain ⟨htake, hdrop'⟩ := digits_append (c :: cs) hrest.not_digit
    rw [hdrop, List.nil_append] at hdrop'
    rw [List.cons_append] at htake hdrop' ⊢
    simp only [readExponentDigits, if_pos hc, htake, hdrop']
    exact ⟨_, rfl⟩

theorem readExponent_append {ds : List Char}
    (h : readExponent m cs = .ok (negative, ds, ⟨[], m'⟩)) (hrest : EndsNumeral rest) (m₂ : Mark) :
    ∃ m₂', readExponent m₂ (cs ++ rest) = .ok (negative, ds, ⟨rest, m₂'⟩) := by
  cases cs with
  | nil => cases h
  | cons c cs =>
    by_cases hm : c = '-'
    · subst hm
      rw [readExponent_minus] at h
      rw [List.cons_append, readExponent_minus]
      exact readExponentDigits_append h hrest _
    by_cases hp : c = '+'
    · subst hp
      rw [readExponent_plus] at h
      rw [List.cons_append, readExponent_plus]
      exact readExponentDigits_append h hrest _
    · rw [readExponent_unsigned hm hp] at h
      rw [List.cons_append, readExponent_unsigned hm hp]
      exact readExponentDigits_append h hrest _

/-! ### Numbers -/

/-- The binary number of some digits and an exponent. -/
def scaledNumber (negative : Bool) (whole fraction : List Char) (e : Int) (overflow : Mark)
    (c : Cursor) : Except Misreading (Number × Cursor) :=
  match Binary.double.ofDecimal negative (valueOf (whole ++ fraction))
      (e - (fraction.length : Int)) with
  | .finite x => .ok (.float x, c)
  | _ => .error ⟨.numberOutOfRange, overflow⟩

/-- Whether there is a number does not depend on places, nor on what stands behind it. -/
theorem scaledNumber_ok {e : Int} {o : Mark} {c c' : Cursor}
    (h : scaledNumber negative whole fraction e o c = .ok (n, c')) (o₂ : Mark) (c₂ : Cursor) :
    c' = c ∧ scaledNumber negative whole fraction e o₂ c₂ = .ok (n, c₂) := by
  unfold scaledNumber at h ⊢
  split at h
  · simp only [Except.ok.injEq, Prod.mk.injEq] at h
    exact ⟨h.2.symm, by rw [← h.1]⟩
  · cases h

theorem plain_ok {c c' : Cursor}
    (h : readScaled.plain negative whole isPlain c (scaledNumber negative whole fraction) =
      .ok (n, c')) (c₂ : Cursor) :
    c' = c ∧ readScaled.plain negative whole isPlain c₂ (scaledNumber negative whole fraction) =
      .ok (n, c₂) := by
  unfold readScaled.plain at h ⊢
  split_ifs at h ⊢
  · split at h
    · simp only [Except.ok.injEq, Prod.mk.injEq] at h
      exact ⟨h.2.symm, by rw [← h.1]⟩
    · cases h
  · exact scaledNumber_ok h _ _

theorem readScaled_exponent {c : Char} (hc : c = 'e' ∨ c = 'E') :
    readScaled negative whole fraction isPlain m (c :: cs) =
      (readExponent (m.along 1) cs).bind fun x =>
        scaledNumber negative whole fraction
          (if x.1 then -(valueOf x.2.1 : Int) else valueOf x.2.1)
          ⟨x.2.2.mark.line, x.2.2.mark.column - (x.2.1.length - exponentWidth x.2.1)⟩ x.2.2 := by
  simp only [readScaled, if_pos hc]
  rfl

theorem readScaled_plain (h : ∀ c ∈ cs.head?, c ≠ 'e' ∧ c ≠ 'E') :
    readScaled negative whole fraction isPlain m cs =
      readScaled.plain negative whole isPlain ⟨cs, m⟩ (scaledNumber negative whole fraction) := by
  cases cs with
  | nil => rfl
  | cons c cs =>
    have hc : ¬ (c = 'e' ∨ c = 'E') := not_or.2 (h c rfl)
    simp only [readScaled, if_neg hc]
    rfl

theorem readScaled_append (h : readScaled negative whole fraction isPlain m cs = .ok (n, ⟨[], m'⟩))
    (hrest : EndsNumeral rest) (m₂ : Mark) :
    ∃ m₂', readScaled negative whole fraction isPlain m₂ (cs ++ rest) = .ok (n, ⟨rest, m₂'⟩) := by
  by_cases hc : ∃ c r, cs = c :: r ∧ (c = 'e' ∨ c = 'E')
  · obtain ⟨c, r, rfl, hc⟩ := hc
    rw [readScaled_exponent hc] at h
    rw [List.cons_append, readScaled_exponent hc]
    cases he : readExponent (m.along 1) r with
    | error e =>
      rw [he] at h
      cases h
    | ok x =>
      obtain ⟨below, ds, after⟩ := x
      rw [he] at h
      obtain rfl := (scaledNumber_ok h m after).1
      obtain ⟨m₂', he'⟩ := readExponent_append he hrest (m₂.along 1)
      rw [he']
      exact ⟨m₂', (scaledNumber_ok h _ _).2⟩
  · -- without an exponent nothing is read here, so that nothing stood here
    have hplain : ∀ c ∈ cs.head?, c ≠ 'e' ∧ c ≠ 'E' := by
      intro c hhead
      obtain ⟨r, rfl⟩ := List.head?_eq_some_iff.1 hhead
      exact not_or.1 fun hc' => hc ⟨c, r, rfl, hc'⟩
    rw [readScaled_plain hplain] at h
    obtain ⟨hnil, h'⟩ := plain_ok h ⟨rest, m₂⟩
    obtain rfl : cs = [] := (Cursor.mk.inj hnil).1.symm
    exact ⟨m₂, by rw [List.nil_append, readScaled_plain fun c hc => (hrest c hc).2.2, h']⟩

/-- Digits behind a leading zero stay out when something else is added. -/
theorem leadingZero_append {c : Char} (h : ¬ (c = '0' ∧ cs.head?.map isDigit = some true))
    (hrest : EndsNumeral rest) : ¬ (c = '0' ∧ (cs ++ rest).head?.map isDigit = some true) := by
  cases cs with
  | cons d cs => exact h
  | nil =>
    rintro ⟨-, hhead⟩
    obtain ⟨d, hd, hdigit⟩ := Option.map_eq_some_iff.1 hhead
    exact Bool.false_ne_true ((hrest.not_digit d hd).symm.trans hdigit)

/-- **A number that is read to the end of a text is also read with something else behind it.** -/
theorem readNumber_append (h : readNumber negative m cs = .ok (n, ⟨[], m'⟩))
    (hrest : EndsNumeral rest) (m₂ : Mark) :
    ∃ m₂', readNumber negative m₂ (cs ++ rest) = .ok (n, ⟨rest, m₂'⟩) := by
  cases cs with
  | nil => cases h
  | cons c cs =>
    simp only [readNumber] at h
    split_ifs at h with hdigit hzero
    obtain ⟨htake, hdrop⟩ := digits_append (c :: cs) hrest.not_digit
    rw [List.cons_append] at htake hdrop ⊢
    simp only [readNumber, if_neg hdigit, if_neg (leadingZero_append hzero hrest), htake, hdrop]
    split at h
    next r hpoint =>
      split_ifs at h with hempty
      obtain ⟨htake', hdrop'⟩ := digits_append r hrest.not_digit
      rw [hpoint, List.cons_append]
      simp only [htake', hdrop', if_neg hempty]
      exact readScaled_append h hrest _
    next r hpoint =>
      -- what is behind the digits is no point, with or without something else behind it
      split
      next r' hr' =>
        cases hr : (c :: cs).dropWhile isDigit with
        | nil =>
          rw [hr, List.nil_append] at hr'
          exact absurd rfl (hrest '.' (by rw [hr']; rfl)).2.1
        | cons d ds =>
          rw [hr, List.cons_append] at hr'
          exact absurd (hr.trans (by rw [(List.cons.inj hr').1])) (hpoint ds)
      next => exact readScaled_append h hrest _

/-! ### What a number leaves -/

theorem readExponentDigits_rest {sign : Bool} {ds : List Char} {c : Cursor}
    (h : readExponentDigits sign m cs = .ok (negative, ds, c)) : c.rest <:+ cs := by
  cases cs with
  | nil => cases h
  | cons x cs =>
    simp only [readExponentDigits] at h
    split_ifs at h
    obtain ⟨-, -, rfl⟩ : _ ∧ _ ∧ _ = c := by simpa using h
    exact List.dropWhile_suffix _

theorem readExponent_rest {ds : List Char} {c : Cursor}
    (h : readExponent m cs = .ok (negative, ds, c)) : c.rest <:+ cs := by
  cases cs with
  | nil => cases h
  | cons x cs =>
    by_cases hm : x = '-'
    · subst hm
      exact (readExponentDigits_rest h).trans (List.suffix_cons _ _)
    by_cases hp : x = '+'
    · subst hp
      exact (readExponentDigits_rest h).trans (List.suffix_cons _ _)
    · rw [readExponent_unsigned hm hp] at h
      exact readExponentDigits_rest h

theorem readScaled_rest {c : Cursor}
    (h : readScaled negative whole fraction isPlain m cs = .ok (n, c)) : c.rest <:+ cs := by
  by_cases hc : ∃ x r, cs = x :: r ∧ (x = 'e' ∨ x = 'E')
  · obtain ⟨x, r, rfl, hx⟩ := hc
    rw [readScaled_exponent hx] at h
    cases he : readExponent (m.along 1) r with
    | error e =>
      rw [he] at h
      cases h
    | ok y =>
      obtain ⟨below, ds, after⟩ := y
      rw [he] at h
      obtain rfl := (scaledNumber_ok h m after).1
      exact (readExponent_rest he).trans (List.suffix_cons _ _)
  · have hplain : ∀ x ∈ cs.head?, x ≠ 'e' ∧ x ≠ 'E' := by
      intro x hhead
      obtain ⟨r, rfl⟩ := List.head?_eq_some_iff.1 hhead
      exact not_or.1 fun hx => hc ⟨x, r, rfl, hx⟩
    rw [readScaled_plain hplain] at h
    obtain rfl := (plain_ok h ⟨cs, m⟩).1
    exact List.suffix_refl _

/-- What is left behind a number is the end of what was there. -/
theorem readNumber_rest {c : Cursor} (h : readNumber negative m cs = .ok (n, c)) :
    c.rest <:+ cs := by
  cases cs with
  | nil => cases h
  | cons x cs =>
    simp only [readNumber] at h
    split_ifs at h
    split at h
    next r hr =>
      split_ifs at h
      have hdrop : r <:+ x :: cs :=
        (List.suffix_cons '.' r).trans (hr ▸ List.dropWhile_suffix _)
      exact ((readScaled_rest h).trans (List.dropWhile_suffix _)).trans hdrop
    next => exact (readScaled_rest h).trans (List.dropWhile_suffix _)

/-! ### The characters of a numeral -/

/-- The characters of which numerals are made. -/
def isNumeralChar (c : Char) : Bool := isDigit c || c == '-' || c == '+' || c == '.' || c == 'e'

theorem isSpace_of_isNumeralChar {c : Char} (h : isNumeralChar c = true) : isSpace c = false := by
  refine Bool.eq_false_iff.2 fun hspace => ?_
  have hcases : c = ' ' ∨ c = '\n' ∨ c = '\t' ∨ c = '\r' := by
    simpa [isSpace, or_assoc] using hspace
  rcases hcases with rfl | rfl | rfl | rfl <;> cases h

/-- The text has no character that does not belong in a numeral. -/
def NumeralChars (cs : List Char) : Prop := ∀ c ∈ cs, isNumeralChar c = true

variable {as bs : List Char}

theorem NumeralChars.append (ha : NumeralChars as) (hb : NumeralChars bs) :
    NumeralChars (as ++ bs) := fun c hc => (List.mem_append.1 hc).elim (ha c) (hb c)

theorem NumeralChars.subset (hb : NumeralChars bs) (h : as ⊆ bs) : NumeralChars as :=
  fun c hc => hb c (h hc)

theorem numeralChars_toDigits (n : Nat) : NumeralChars (Nat.toDigits 10 n) := by
  intro c hc
  rw [isNumeralChar, isDigit_of_mem_toDigits hc]
  rfl

theorem numeralChars_zeros (k : Nat) : NumeralChars (List.replicate k '0') := by
  intro c hc
  rw [List.eq_of_mem_replicate hc]
  rfl

theorem numeralChars_positional (x : Binary.Numeral) :
    NumeralChars x.positional.1.toList ∧ NumeralChars x.positional.2.toList := by
  have hdigits := numeralChars_toDigits x.digits
  have hnil : NumeralChars "".toList := by simp [NumeralChars]
  have hzero : NumeralChars "0".toList := numeralChars_zeros 1
  simp only [Binary.Numeral.positional]
  split
  · exact ⟨by simpa only [String.toList_ofList] using hdigits.append (numeralChars_zeros _), hnil⟩
  split
  · exact ⟨hzero, by simpa only [String.toList_ofList] using (numeralChars_zeros _).append hdigits⟩
  · simp only [String.toList_ofList]
    exact ⟨hdigits.subset (List.take_subset _ _), hdigits.subset (List.drop_subset _ _)⟩

theorem render_ofNat (k : Nat) : (Number.int k).render.toList = Nat.toDigits 10 k := Nat.toList_repr

theorem render_negSucc (k : Nat) :
    (Number.int (Int.negSucc k)).render.toList = '-' :: Nat.toDigits 10 (k + 1) := by
  have hrender : (Number.int (Int.negSucc k)).render = "-" ++ Nat.repr (k + 1) := rfl
  rw [hrender, String.toList_append, Nat.toList_repr]
  rfl

theorem numeralChars_scientific (x : Binary.Numeral) : NumeralChars x.scientific.toList := by
  have hdigits := numeralChars_toDigits x.digits
  have hrest : NumeralChars (if ((Nat.toDigits 10 x.digits).drop 1).isEmpty then []
      else '.' :: (Nat.toDigits 10 x.digits).drop 1) := by
    split
    · simp [NumeralChars]
    · have hpoint : NumeralChars ['.'] := by simp [NumeralChars, isNumeralChar]
      exact hpoint.append (hdigits.subset (List.drop_subset _ _))
  simp only [Binary.Numeral.scientific, String.toList_append, String.toList_ofList]
  refine ((((hdigits.subset (List.take_subset _ _)).append hrest)).append ?_).append ?_
  · split <;> simp [NumeralChars, isNumeralChar]
  · rw [Nat.toString_eq_repr, Nat.toList_repr]
    exact numeralChars_toDigits _

/-- A number is printed with the characters of numerals only. -/
theorem numeralChars_render (n : Number) : NumeralChars n.render.toList := by
  cases n with
  | int k =>
    cases k with
    | ofNat k => exact render_ofNat k ▸ numeralChars_toDigits k
    | negSucc k =>
      rw [render_negSucc]
      have hsign : NumeralChars ['-'] := by simp [NumeralChars, isNumeralChar]
      exact hsign.append (numeralChars_toDigits (k + 1))
  | float x =>
    have hzero : NumeralChars "0.0".toList := by simp [NumeralChars, isNumeralChar, isDigit]
    obtain ⟨hwhole, hfraction⟩ := numeralChars_positional (Binary.double.shortest x)
    simp only [Number.render, Binary.Format.render, String.toList_append]
    refine NumeralChars.append ?_ ?_
    · unfold Binary.sign
      split <;> simp [NumeralChars, isNumeralChar]
    split
    · exact hzero
    split
    · simp only [String.toList_append]
      refine (hwhole.append (by simp [NumeralChars, isNumeralChar])).append ?_
      split
      · exact numeralChars_zeros 1
      · exact hfraction
    · exact numeralChars_scientific _

/-! ### Numbers as values -/

theorem skipSpace_of_head {cs : List Char} (h : ∀ c ∈ cs.head?, isSpace c = false) (m : Mark) :
    skipSpace m cs = ⟨cs, m⟩ := by
  cases cs with
  | nil => rfl
  | cons c cs => rw [skipSpace, h c rfl, if_neg Bool.false_ne_true]

theorem NumeralChars.skipSpace {cs : List Char} (h : NumeralChars cs) (m : Mark) :
    Json.skipSpace m cs = ⟨cs, m⟩ :=
  skipSpace_of_head (fun c hc => isSpace_of_isNumeralChar (h c (List.mem_of_mem_head? hc))) m

/-- A value that starts with a character of numerals is a number. -/
theorem readValue_numeral {fuel depth : Nat} {c : Char} (hc : isNumeralChar c = true)
    (cs : List Char) (m : Mark) :
    readValue (fuel + 1) depth ⟨c :: cs, m⟩ =
      if c = '-' then scalarOf m .number (readNumber true (m.along 1) cs)
      else if isDigit c then scalarOf m .number (readNumber false m (c :: cs))
      else (.broken ⟨.expectedValue, m.pastByte c⟩, .error ⟨.expectedValue, m.pastByte c⟩) := by
  have hskip : Cursor.skip ⟨c :: cs, m⟩ = ⟨c :: cs, m⟩ :=
    skipSpace_of_head (fun x hx => by cases hx; exact isSpace_of_isNumeralChar hc) m
  have hother : c ≠ 'n' ∧ c ≠ 't' ∧ c ≠ 'f' ∧ c ≠ '"' ∧ c ≠ '[' ∧ c ≠ '\x7b' := by
    refine ⟨?_, ?_, ?_, ?_, ?_, ?_⟩ <;> (rintro rfl; cases hc)
  obtain ⟨hn, ht, hf, hq, hb, ho⟩ := hother
  rw [readValue]
  simp only [hskip, if_neg hn, if_neg ht, if_neg hf, if_neg hq, if_neg hb, if_neg ho]

/-- A number that is read at the start of a value, with its sign. -/
def readSigned (m : Mark) (c : Char) (cs : List Char) : Except Misreading (Number × Cursor) :=
  if c = '-' then readNumber true (m.along 1) cs else readNumber false m (c :: cs)

theorem readSigned_rest {x : Char} {c : Cursor} (h : readSigned m x cs = .ok (n, c)) :
    c.rest <:+ x :: cs := by
  unfold readSigned at h
  split at h
  · exact (readNumber_rest h).trans (List.suffix_cons _ _)
  · exact readNumber_rest h

theorem readSigned_append {x : Char} (h : readSigned m x cs = .ok (n, ⟨[], m'⟩))
    (hrest : EndsNumeral rest) (m₂ : Mark) :
    ∃ m₂', readSigned m₂ x (cs ++ rest) = .ok (n, ⟨rest, m₂'⟩) := by
  unfold readSigned at h ⊢
  split at h
  next hx =>
    rw [if_pos hx]
    exact readNumber_append h hrest _
  next hx =>
    rw [if_neg hx]
    exact readNumber_append h hrest _

/-- A scalar that is the whole text has been read up to its end. -/
theorem readValue_signed {fuel depth : Nat} {c : Char} (hc : isNumeralChar c = true)
    (hstart : c = '-' ∨ isDigit c = true) :
    readValue (fuel + 1) depth ⟨c :: cs, m⟩ = scalarOf m .number (readSigned m c cs) := by
  rw [readValue_numeral hc, readSigned]
  split
  · rfl
  · rw [if_pos (hstart.resolve_left ‹_›)]

/-- A text of numeral characters that is a number was read as one, up to its end. -/
theorem parse_numeral {s : String} (hs : NumeralChars s.toList) (h : parse s = .ok (.number n)) :
    ∃ c cs m', s.toList = c :: cs ∧ (c = '-' ∨ isDigit c = true) ∧
      readSigned ⟨1, 0⟩ c cs = .ok (n, ⟨[], m'⟩) := by
  cases hchars : s.toList with
  | nil =>
    simp [parse, Document.read, Cursor.start, hchars, readValue, Cursor.skip, skipSpace,
      Document.value] at h
  | cons c cs =>
    rw [hchars] at hs
    have hc : isNumeralChar c = true := hs c (List.mem_cons_self ..)
    simp only [parse, Document.read, Cursor.start, hchars, List.length_cons, Nat.mul_add,
      Nat.mul_one] at h
    by_cases hstart : c = '-' ∨ isDigit c = true
    · rw [readValue_signed hc hstart] at h
      cases hread : readSigned ⟨1, 0⟩ c cs with
      | error e => simp [hread, scalarOf, Document.value] at h
      | ok x =>
        obtain ⟨n', left, m'⟩ := x
        -- what is left has no white space, so that it is nothing
        have hleft : NumeralChars left := hs.subset (readSigned_rest hread).subset
        simp only [hread, scalarOf, Cursor.skip, hleft.skipSpace] at h
        cases left with
        | nil =>
          obtain rfl : n' = n := by simpa [Document.value, Scalar.toJson] using h
          exact ⟨c, cs, m', rfl, hstart, hread⟩
        | cons y left =>
          simp only [Document.value] at h
          cases h
    · rw [readValue_numeral hc, if_neg (not_or.1 hstart).1, if_neg (not_or.1 hstart).2] at h
      cases h

end Json

/-- The number is read back from the numeral as which it is printed. -/
def Number.ReadsBack (n : Number) : Prop := Json.parse n.render = .ok (.number n)

namespace Json

open Decimal

/-- **A number that is read back from its numeral is read wherever the numeral stands.** -/
theorem readValue_number (h : n.ReadsBack) (hrest : EndsNumeral rest) (fuel depth : Nat)
    (m : Mark) :
    ∃ m', readValue (fuel + 1) depth ⟨n.render.toList ++ rest, m⟩ =
      (.scalar (.number n) (some ⟨m, m'⟩), .ok ⟨rest, m'⟩) := by
  have hchars := numeralChars_render n
  obtain ⟨c, cs, m₀, heq, hstart, hread⟩ := parse_numeral hchars h
  obtain ⟨m', hread'⟩ := readSigned_append hread hrest m
  rw [heq] at hchars ⊢
  refine ⟨m', ?_⟩
  rw [List.cons_append, readValue_signed (hchars c (List.mem_cons_self ..)) hstart, hread']
  rfl

/-! ### Integers -/

/-- A number is not printed with a zero in front of it. -/
theorem toDigits_head_zero {k : Nat} {ds : List Char} (h : Nat.toDigits 10 k = '0' :: ds) :
    ds = [] := by
  induction k using Nat.strongRecOn generalizing ds with
  | ind k ih =>
    rw [Nat.toDigits_eq_if (by decide)] at h
    split at h
    · exact (List.cons.inj h).2.symm
    next hk =>
      exfalso
      -- the digits before the last one are those of a smaller number, which would then be zero
      cases hq : Nat.toDigits 10 (k / 10) with
      | nil => exact absurd hq (Nat.toDigits_ne_nil)
      | cons d qs =>
        rw [hq, List.cons_append] at h
        obtain ⟨rfl, -⟩ := List.cons.inj h
        obtain rfl := ih (k / 10) (by omega) hq
        have hvalue := valueOf_toDigits (k / 10)
        rw [hq] at hvalue
        have : k / 10 = 0 := hvalue.symm
        omega

/-- The digits of an integer are read as that integer. -/
theorem readNumber_toDigits {k : Nat} (h : integerOf negative k = some n) (m : Mark) :
    ∃ m', readNumber negative m (Nat.toDigits 10 k) = .ok (n, ⟨[], m'⟩) := by
  have hdigits : ∀ c ∈ Nat.toDigits 10 k, isDigit c = true := fun c => isDigit_of_mem_toDigits
  have hend : ∀ c ∈ ([] : List Char).head?, isDigit c = false := nofun
  obtain ⟨htake, hdrop⟩ := takeWhile_run hdigits hend
  have hvalue := valueOf_toDigits k
  rw [List.append_nil] at htake hdrop
  cases hds : Nat.toDigits 10 k with
  | nil => exact absurd hds Nat.toDigits_ne_nil
  | cons c cs =>
    rw [hds] at hdigits htake hdrop hvalue
    have hc : isDigit c = true := hdigits c (List.mem_cons_self ..)
    -- a zero in front of other digits would be refused
    have hzero : ¬ (c = '0' ∧ cs.head?.map isDigit = some true) := by
      rintro ⟨rfl, hhead⟩
      rw [toDigits_head_zero hds] at hhead
      cases hhead
    simp only [readNumber, hc, Bool.not_true, Bool.false_eq_true, if_false, if_neg hzero, htake,
      hdrop, readScaled, readScaled.plain, if_true, hvalue, h]
    exact ⟨_, rfl⟩

theorem parse_of_readSigned {s : String} {c : Char} (hs : s.toList = c :: cs)
    (hc : isNumeralChar c = true) (hstart : c = '-' ∨ isDigit c = true)
    (h : readSigned ⟨1, 0⟩ c cs = .ok (n, ⟨[], m'⟩)) : parse s = .ok (.number n) := by
  simp only [parse, Document.read, Cursor.start, hs, List.length_cons, Nat.mul_add, Nat.mul_one]
  rw [readValue_signed hc hstart, h]
  rfl

end Json

open Json

/-- **An integer of at most 64 bits is read back.** -/
theorem Number.readsBack_int {k : Int} (hlow : -2 ^ 63 ≤ k) (hhigh : k < 2 ^ 64) :
    (Number.int k).ReadsBack := by
  cases k with
  | ofNat k =>
    have hk : integerOf false k = some (.int k) := by
      simp only [integerOf, Bool.false_eq_true, if_false]
      have hfits : k < Nat.pow 2 64 := Int.ofNat_lt.1 hhigh
      rw [if_pos (decide_eq_true hfits)]
    obtain ⟨m', hread⟩ := readNumber_toDigits hk ⟨1, 0⟩
    cases hds : Nat.toDigits 10 k with
    | nil => exact absurd hds Nat.toDigits_ne_nil
    | cons c cs =>
      have hc : Decimal.isDigit c = true :=
        Decimal.isDigit_of_mem_toDigits (hds ▸ List.mem_cons_self ..)
      have hne : c ≠ '-' := by
        rintro rfl
        cases hc
      have hsigned : readSigned ⟨1, 0⟩ c cs = .ok (.int k, ⟨[], m'⟩) := by
        rw [readSigned, if_neg hne, ← hds]
        exact hread
      exact parse_of_readSigned ((render_ofNat k).trans hds) (by simp [isNumeralChar, hc])
        (.inr hc) hsigned
  | negSucc k =>
    have hk : integerOf true (k + 1) = some (.int (Int.negSucc k)) := by
      simp only [integerOf, if_true]
      have hfits : k + 1 ≤ Nat.pow 2 63 := by
        have hpow : Nat.pow 2 63 = 2 ^ 63 := rfl
        omega
      rw [if_pos (decide_eq_true ⟨Nat.succ_pos k, hfits⟩)]
      rfl
    obtain ⟨m', hread⟩ := readNumber_toDigits hk (Mark.along ⟨1, 0⟩ 1)
    exact parse_of_readSigned (render_negSucc k) rfl (.inl rfl) hread

end Conductor

import Conductor.Proofs.Json.Codec
import Conductor.Proofs.Number.Digits
import Conductor.Proofs.Text.Fence
import Conductor.Timestamp

/-!
# Timestamps that are read back

Every field of a timestamp is printed with a fixed number of digits, so that the reader, which takes
at most that many, stops where the field ends. The year has four digits from 0 to 9999.

* `Timestamp.parse_render` : **a timestamp of a year with four digits is read back;**
* `Timestamp.codec_keeps` : so is its JSON.
-/

namespace Conductor

namespace Timestamp

open Decimal Text

variable {width n : Nat} {rest ds : List Char}

/-! ### Fields -/

theorem isBlank_of_isDigit {c : Char} (h : isDigit c = true) : isBlank c = false := by
  have hrange : 48 ≤ c.toNat ∧ c.toNat ≤ 57 := Char.isDigit_iff_toNat.1 (isDigit_eq c ▸ h)
  simp only [isBlank, Bool.or_eq_false_iff, Bool.and_eq_false_iff, decide_eq_false_iff_not,
    beq_eq_false_iff_ne]
  omega

theorem padded_ne_nil : padded width n ≠ [] := fun h =>
  Nat.toDigits_ne_nil (List.append_eq_nil_iff.1 h).2

theorem isBlank_head_padded : ∀ c ∈ (padded width n ++ rest).head?, isBlank c = false := by
  intro c hc
  rw [List.head?_append_of_ne_nil _ padded_ne_nil] at hc
  exact isBlank_of_isDigit (isDigit_of_mem_padded (List.mem_of_mem_head? hc))

/-- Digits are taken up to the end of a field, or as far as a field goes. -/
theorem takeNumber_digits (hds : ∀ c ∈ ds, isDigit c = true) (hne : ds ≠ [])
    (hlen : ds.length ≤ width)
    (hrest : ds.length = width ∨ ∀ c ∈ rest.head?, isDigit c = false) :
    takeNumber width (ds ++ rest) = .ok (ds, rest) := by
  have htake : ((ds ++ rest).take width).takeWhile isDigit = ds := by
    rw [List.take_append, List.take_of_length_le hlen]
    rcases hrest with rfl | hrest
    · rw [Nat.sub_self, List.take_zero]
      exact (takeWhile_run hds (by simp)).1
    · refine (takeWhile_run hds fun c hc => hrest c ?_).1
      cases rest with
      | nil => simp at hc
      | cons d rest =>
        cases hk : width - ds.length with
        | zero => simp [hk] at hc
        | succ k => simpa [hk] using hc
  cases ds with
  | nil => exact absurd rfl hne
  | cons d ds =>
    rw [List.cons_append] at htake ⊢
    simp only [takeNumber, htake]
    rw [← List.cons_append, List.drop_left]

theorem takeNumber_padded (hw : 0 < width) (hn : n < 10 ^ width) :
    takeNumber width (padded width n ++ rest) = .ok (padded width n, rest) :=
  takeNumber_digits (fun _ => isDigit_of_mem_padded) padded_ne_nil
    (Nat.le_of_eq (length_padded hw hn)) (.inl (length_padded hw hn))

theorem takeField_padded {low high : Nat} (hw : 0 < width) (hn : n < 10 ^ width) (hlow : low ≤ n)
    (hhigh : n ≤ high) : takeField width low high (padded width n ++ rest) = .ok (n, rest) := by
  rw [takeField, trimStartChars_of_head isBlank_head_padded, takeNumber_padded hw hn]
  change (if low ≤ valueOf (padded width n) ∧ valueOf (padded width n) ≤ high then _ else _) = _
  rw [valueOf_padded, if_pos ⟨hlow, hhigh⟩]
  rfl

theorem takeMark_cons {mark : Char} (h : isBlank mark = false) :
    takeMark mark (mark :: rest) = .ok rest := by
  rw [takeMark, trimStartChars_of_head fun c hc => by cases hc; exact h]
  exact if_pos rfl

theorem takeYear_digit {c : Char} {cs : List Char} (hm : c ≠ '-') (hp : c ≠ '+')
    (hc : isBlank c = false) :
    takeYear (c :: cs) = (takeNumber 4 (c :: cs)).map fun r => ((valueOf r.1 : Int), r.2) := by
  rw [takeYear, trimStartChars_of_head fun x hx => by cases hx; exact hc]
  split
  · simp_all
  · simp_all
  · cases takeNumber 4 (c :: cs) <;> rfl

theorem takeYear_yearChars {y : Int} (hlow : 0 ≤ y) (hhigh : y ≤ 9999) :
    takeYear (yearChars y ++ rest) = .ok (y, rest) := by
  have hy : yearChars y = padded 4 y.toNat := if_pos ⟨hlow, hhigh⟩
  have hread : takeNumber 4 (padded 4 y.toNat ++ rest) = .ok (padded 4 y.toNat, rest) :=
    takeNumber_padded (by decide) (by omega)
  have hvalue : (valueOf (padded 4 y.toNat) : Int) = y := by
    rw [valueOf_padded, Int.toNat_of_nonneg hlow]
  rw [hy]
  cases hcs : padded 4 y.toNat with
  | nil => exact absurd hcs padded_ne_nil
  | cons c cs =>
    have hc : isDigit c = true := isDigit_of_mem_padded (hcs ▸ List.mem_cons_self ..)
    have hm : c ≠ '-' := by
      rintro rfl
      cases hc
    have hp : c ≠ '+' := by
      rintro rfl
      cases hc
    rw [hcs, List.cons_append] at hread
    rw [hcs] at hvalue
    rw [List.cons_append, takeYear_digit hm hp (isBlank_of_isDigit hc), hread]
    exact congrArg (fun y => Except.ok (y, rest)) hvalue

/-- A fraction is read by the number of its digits. -/
theorem takeFraction_padded (hw : 0 < width) (hn : n < 10 ^ width) (hlen : width ≤ 9) :
    takeFraction ('.' :: padded width n ++ ['Z']) = .ok (n * 10 ^ (9 - width), ['Z']) := by
  have hread : takeNumber 9 (padded width n ++ ['Z']) = .ok (padded width n, ['Z']) :=
    takeNumber_digits (fun _ => isDigit_of_mem_padded) padded_ne_nil
      (by rw [length_padded hw hn]; exact hlen) (.inr (by simp [isDigit]))
  rw [List.cons_append, takeFraction, hread]
  change Except.ok (valueOf (padded width n) * 10 ^ (9 - (padded width n).length),
    ['Z'].dropWhile isDigit) = _
  rw [valueOf_padded, length_padded hw hn]
  rfl

theorem takeFraction_fractionChars (hn : n < 1000000000) :
    takeFraction (fractionChars n ++ ['Z']) = .ok (n, ['Z']) := by
  unfold fractionChars
  split
  next h => rw [h]; rfl
  split
  next h =>
    rw [takeFraction_padded (by decide) (by omega) (by decide)]
    exact congrArg (fun n => Except.ok (n, ['Z'])) (by omega)
  split
  next h =>
    rw [takeFraction_padded (by decide) (by omega) (by decide)]
    exact congrArg (fun n => Except.ok (n, ['Z'])) (by omega)
  · rw [takeFraction_padded (by decide) (by omega) (by decide)]
    exact congrArg (fun n => Except.ok (n, ['Z'])) (by omega)

/-! ### Whole timestamps -/

/-- **A timestamp of a year with four digits is read back.** -/
theorem parse_render (t : Timestamp) (hlow : 0 ≤ t.date.year) (hhigh : t.date.year ≤ 9999) :
    parse t.render = .ok t := by
  obtain ⟨⟨year, month, day⟩, hour, minute, second, nanos, hvalid⟩ := t
  obtain ⟨⟨hm, hm', hd, hd'⟩, hh, hmin, hs, hn⟩ := id hvalid
  dsimp only at hlow hhigh hm hm' hd hd'
  have hmonthDays : daysInMonth year month ≤ 31 := by
    unfold daysInMonth
    split
    · split <;> decide
    · split <;> decide
  have hchars : (render ⟨⟨year, month, day⟩, hour, minute, second, nanos, hvalid⟩).toList =
      yearChars year ++ '-' :: (padded 2 month ++ '-' :: (padded 2 day ++ 'T' ::
        (padded 2 hour ++ ':' :: (padded 2 minute ++ ':' :: (padded 2 second ++
          (fractionChars nanos ++ ['Z'])))))) := by
    simp [render, toChars]
  have hyears : inYears year = true := by
    simp only [inYears, Bool.and_eq_true, decide_eq_true_eq]
    constructor <;> omega
  -- the zone is always that of Greenwich, so that the date does not move
  have hshift : shift ⟨year, month, day⟩ ((hour * 60 + minute : Nat) - (0 : Int)) =
      (⟨year, month, day⟩, ((hour * 60 + minute : Nat) : Int)) := by
    rw [shift, Int.sub_zero, if_neg (by omega), if_neg (by omega)]
  have hhour : (hour * 60 + minute) / 60 = hour := by omega
  have hminute : (hour * 60 + minute) % 60 = minute := by omega
  have hzone : takeZone (trimStartChars ['Z']) = .ok (0, []) := by decide
  -- one fact for each part of the text, in front of whatever follows it
  have hdash (rest : List Char) : takeMark '-' ('-' :: rest) = .ok rest := takeMark_cons rfl
  have hcolon (rest : List Char) : takeMark ':' (':' :: rest) = .ok rest := takeMark_cons rfl
  have hmonth (rest : List Char) : takeField 2 1 12 (padded 2 month ++ rest) = .ok (month, rest) :=
    takeField_padded (by decide) (by omega) hm hm'
  have hday (rest : List Char) : takeField 2 1 31 (padded 2 day ++ rest) = .ok (day, rest) :=
    takeField_padded (by decide) (by omega) hd (by omega)
  have hhours (rest : List Char) : takeField 2 0 23 (padded 2 hour ++ rest) = .ok (hour, rest) :=
    takeField_padded (by decide) (by omega) (by omega) (by omega)
  have hminutes (rest : List Char) :
      takeField 2 0 59 (padded 2 minute ++ rest) = .ok (minute, rest) :=
    takeField_padded (by decide) (by omega) (by omega) (by omega)
  have hseconds (rest : List Char) :
      takeField 2 0 60 (padded 2 second ++ rest) = .ok (second, rest) :=
    takeField_padded (by decide) (by omega) (by omega) (by omega)
  have hseparator (rest : List Char) : takeSeparator ('T' :: rest) = .ok rest := rfl
  rw [parse, hchars, ofChars]
  simp only [bind, Except.bind, takeYear_yearChars hlow hhigh, hdash, hmonth, hday, hseparator,
    hhours, hcolon, hminutes, hseconds, takeFraction_fractionChars hn, hzone, hshift, hyears,
    Int.toNat_natCast, hhour, hminute]
  rw [if_neg (by decide), if_neg (by simp [hvalid.1]), if_neg (by decide), dif_pos hvalid]
  rfl

open Json

/-- The JSON of a timestamp of a year with four digits stands for the timestamp again. -/
theorem codec_keeps (t : Timestamp) (hlow : 0 ≤ t.date.year) (hhigh : t.date.year ≤ 9999) :
    codec.Keeps t where
  accepts := Format.Accepts.text (by rw [parse_render t hlow hhigh])
  decode := by
    simp only [codec, text?, bind, Option.bind, parse_render t hlow hhigh, Except.toOption]

end Timestamp

end Conductor

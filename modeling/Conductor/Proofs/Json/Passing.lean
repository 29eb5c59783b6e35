import Conductor.Proofs.Json.Reading

/-!
# Values that are passed over

A decoder that has no use for a member passes over its value. It then looks at less than a reader
does, so whatever is read can be passed over, and the same is left behind it. In the other direction
more is passed over than is read: a text of a value may open any number of brackets.

* `Json.passString_of_readStringChars`, `Json.passNumber_of_readNumber` : strings and numbers that
  are read are passed over;
* `Json.passValue_of_readValue` : **a value that is read is passed over to the same place;**
* `Json.passValue_written` : **a text of a value is passed over, however deeply it is nested;**
* `Json.readMember_written` : what is read behind a member does not depend on the depth of its value.
-/

namespace Conductor

namespace Json

open Decimal (isDigit)

variable {cs rest : List Char} {c : Char} {m : Mark} {after : Cursor}

/-! ### Strings -/

theorem passString_unicode {x y z w : Char} {n : Nat} (h : hexCode x y z w = some n) :
    passString m ('\\' :: 'u' :: x :: y :: z :: w :: rest) = passString (m.along 6) rest := by
  rw [passString, h, Option.isSome_some, if_pos rfl]

theorem passString_simple {x : Char} (hc : c ≠ 'u') (h : simpleEscape c = some x) :
    passString m ('\\' :: c :: rest) = passString (m.along 2) rest := by
  rw [passString, h, Option.isSome_some, if_pos rfl]
  · exact fun _ _ _ _ _ hu => absurd hu hc
  · exact hc

/-- A string that is read is passed over. -/
theorem passString_of_readStringChars {acc : List Char} {s : String}
    (h : readStringChars m acc cs = .ok (s, after)) : passString m cs = .ok after := by
  fun_induction readStringChars m acc cs with
  | case5 m acc a b c d n hn hlow hhigh a' b' c' d' rest n' hn' hlow' ih =>
    -- the two halves of a pair are passed over one after the other
    rw [passString_unicode hn, passString_unicode hn']
    exact ih h
  | case8 m acc a b c d rest n hn hlow hhigh ih =>
    rw [passString_unicode hn]
    exact ih h
  | case10 m acc c rest hcode hu x hx ih =>
    rw [passString_simple hu hx]
    exact ih h
  | case12 m acc rest hcode hshort hsimple =>
    cases h
    rw [passString, if_pos rfl]
    all_goals assumption
  | case15 m acc c rest hcode hshort hsimple hquote hslash hprinted ih =>
    rw [passString, if_neg hquote, if_neg hslash, if_neg hprinted]
    · exact ih h
    all_goals assumption
  | _ => cases h

/-! ### Numbers -/

theorem passExponent_of_readExponent {below : Bool} {ds : List Char}
    (h : readExponent m cs = .ok (below, ds, after)) : passExponent m cs = .ok after := by
  unfold readExponent at h
  split at h
  next negative m' cs' hsign =>
  have hdigits : passDigits m' cs' = .ok after := by
    unfold passDigits
    split at h
    · cases h
    · split at h
      · cases h
        rw [if_pos ‹_›]
      · cases h
  unfold passExponent
  split at hsign <;> cases hsign <;> exact hdigits

theorem passScale_of_readScaled {negative isPlain : Bool} {whole fraction : List Char} {n : Number}
    (h : readScaled negative whole fraction isPlain m cs = .ok (n, after)) :
    passScale m cs = .ok after := by
  by_cases hc : ∃ x r, cs = x :: r ∧ (x = 'e' ∨ x = 'E')
  · obtain ⟨x, r, rfl, hx⟩ := hc
    rw [readScaled_exponent hx] at h
    cases he : readExponent (m.along 1) r with
    | error e =>
      rw [he] at h
      cases h
    | ok y =>
      obtain ⟨below, ds, after'⟩ := y
      rw [he] at h
      obtain rfl := (scaledNumber_ok h m after').1
      rw [passScale, if_pos hx]
      exact passExponent_of_readExponent he
  · have hplain : ∀ x ∈ cs.head?, x ≠ 'e' ∧ x ≠ 'E' := by
      intro x hhead
      obtain ⟨r, rfl⟩ := List.head?_eq_some_iff.1 hhead
      exact not_or.1 fun hx => hc ⟨x, r, rfl, hx⟩
    rw [readScaled_plain hplain] at h
    obtain rfl := (plain_ok h ⟨cs, m⟩).1
    cases cs with
    | nil => rfl
    | cons x r => rw [passScale, if_neg (not_or.2 (hplain x rfl))]

/-- A number that is read is passed over. -/
theorem passNumber_of_readNumber {negative : Bool} {n : Number}
    (h : readNumber negative m cs = .ok (n, after)) : passNumber m cs = .ok after := by
  cases cs with
  | nil => cases h
  | cons x cs =>
    simp only [readNumber] at h
    split_ifs at h with hdigit hzero
    simp only [passNumber, if_neg hdigit, if_neg hzero]
    split at h
    next r hr =>
      split_ifs at h with hempty
      rw [if_neg hempty]
      exact passScale_of_readScaled h
    next => exact passScale_of_readScaled h

/-! ### Items and members -/

/-- Passes over an item and those behind it. -/
def passItem (fuel : Nat) (c : Cursor) : Except Misreading Cursor :=
  match passValue fuel c with
  | .error e => .error e
  | .ok after => passItems fuel false after

/-- Passes over the value of a key behind its colon, and the members behind it. -/
def passMember (fuel : Nat) (c : Cursor) : Except Misreading Cursor :=
  match passValue fuel c with
  | .error e => .error e
  | .ok after => passMembers fuel false after

/-- Passes over a member behind the quotation mark of its key, and those behind it. -/
def passKeyed (fuel : Nat) (m : Mark) (cs : List Char) : Except Misreading Cursor :=
  match passString (m.along 1) cs with
  | .error e => .error e
  | .ok c =>
    match c.skip.rest with
    | [] => .error ⟨.endInObject, c.skip.mark⟩
    | x :: rest =>
      if x = ':' then passMember fuel ⟨rest, c.skip.mark.along 1⟩
      else .error ⟨.expectedColon, c.skip.mark.pastByte x⟩

/-- Reads a member behind the quotation mark of its key, and those behind it. -/
def readKeyed (fuel depth : Nat) (m : Mark) (cs : List Char) :
    Members × Except Misreading Cursor :=
  match readStringChars (m.along 1) [] cs with
  | .error e => (.cut e, .error e)
  | .ok (key, c) =>
    let broken (f : Fault) (m : Mark) : Members × Except Misreading Cursor :=
      (.cons key (some c.skip.mark) (.broken ⟨f, m⟩) none (.cut ⟨f, m⟩), .error ⟨f, m⟩)
    match c.skip.rest with
    | [] => broken .endInObject c.skip.mark
    | x :: rest =>
      if x = ':' then readMember fuel depth key c.skip.mark ⟨rest, c.skip.mark.along 1⟩
      else broken .expectedColon (c.skip.mark.pastByte x)

/-! ### Values -/

theorem ok_of_wordOf {start : Mark} {v : Scalar} {r : Except Misreading Cursor}
    (h : (wordOf start v r).2 = .ok after) : r = .ok after := by
  cases r with
  | error e => cases h
  | ok c => exact h

theorem ok_of_scalarOf {α : Type} {start : Mark} {f : α → Scalar}
    {r : Except Misreading (α × Cursor)} (h : (scalarOf start f r).2 = .ok after) :
    ∃ v, r = .ok (v, after) := by
  cases r with
  | error e => cases h
  | ok x =>
    obtain ⟨v, c⟩ := x
    obtain rfl := Except.ok.inj h
    exact ⟨v, rfl⟩

section Steps

variable {fuel depth : Nat} (hvalue : ∀ {depth : Nat} {c after : Cursor},
  (readValue fuel depth c).2 = .ok after → passValue fuel c = .ok after)

include hvalue

/-- An item that is read is passed over, if those behind it are. -/
theorem passItem_of_readItem (hitems : ∀ {depth : Nat} {c after : Cursor},
      (readItems fuel depth false c).2 = .ok after → passItems fuel false c = .ok after)
    {c : Cursor} (h : (readItem fuel depth c).2 = .ok after) : passItem fuel c = .ok after := by
  cases hd : readValue fuel depth c with
  | mk d r =>
  cases r with
  | error e =>
    rw [readItem, hd] at h
    cases h
  | ok behind =>
    rw [readItem_ok hd] at h
    rw [passItem, hvalue (congrArg Prod.snd hd)]
    exact hitems h

variable (hmembers : ∀ {depth : Nat} {c after : Cursor},
  (readMembers fuel depth false c).2 = .ok after → passMembers fuel false c = .ok after)

include hmembers

/-- A value that has a fault is passed over by the reader of the members itself. -/
theorem passMember_of_readMember {key : String} {afterKey : Mark} {c : Cursor}
    (h : (readMember fuel depth key afterKey c).2 = .ok after) : passMember fuel c = .ok after := by
  cases hd : readValue fuel depth c with
  | mk d r =>
  cases r with
  | error e =>
    rw [readMember, hd] at h
    dsimp only at h
    cases hpass : passValue fuel c with
    | error e =>
      rw [hpass] at h
      cases h
    | ok behind =>
      rw [hpass] at h
      rw [passMember, hpass]
      exact hmembers h
  | ok behind =>
    rw [readMember_ok hd] at h
    rw [passMember, hvalue (congrArg Prod.snd hd)]
    exact hmembers h

theorem passKeyed_of_readKeyed (h : (readKeyed fuel depth m cs).2 = .ok after) :
    passKeyed fuel m cs = .ok after := by
  unfold readKeyed at h
  unfold passKeyed
  split at h
  · cases h
  · next key c hkey =>
    rw [passString_of_readStringChars hkey]
    dsimp only
    cases hrest : c.skip.rest with
    | nil =>
      simp only [hrest] at h
      cases h
    | cons x rest =>
      simp only [hrest] at h ⊢
      split_ifs at h ⊢
      exact passMember_of_readMember hvalue hmembers h

end Steps

-- The induction is on the fuel, of which both spend the same.
mutual

/-- **A value that is read is passed over**, and the same is left behind it. -/
theorem passValue_of_readValue : (fuel : Nat) → {depth : Nat} → {c after : Cursor} →
    (readValue fuel depth c).2 = .ok after → passValue fuel c = .ok after
  | 0, _, _, _, h => nomatch h
  | fuel + 1, depth, c, after, h => by
    rw [readValue] at h
    rw [passValue]
    cases hrest : c.skip.rest with
    | nil =>
      simp only [hrest] at h
      cases h
    | cons x rest =>
      simp only [hrest] at h ⊢
      split_ifs at h ⊢
      · exact ok_of_wordOf h
      · exact ok_of_wordOf h
      · exact ok_of_wordOf h
      · obtain ⟨n, hn⟩ := ok_of_scalarOf h
        exact passNumber_of_readNumber hn
      · obtain ⟨n, hn⟩ := ok_of_scalarOf h
        exact passNumber_of_readNumber hn
      · obtain ⟨s, hs⟩ := ok_of_scalarOf h
        exact passString_of_readStringChars hs
      · exact passItems_of_readItems fuel h
      · exact passMembers_of_readMembers fuel h

theorem passItems_of_readItems : (fuel : Nat) → {depth : Nat} → {first : Bool} →
    {c after : Cursor} → (readItems fuel depth first c).2 = .ok after →
    passItems fuel first c = .ok after
  | 0, _, _, _, _, h => nomatch h
  | fuel + 1, depth, first, c, after, h => by
    have hitem {c : Cursor} (h : (readItem fuel depth c).2 = .ok after) :
        passItem fuel c = .ok after :=
      passItem_of_readItem (passValue_of_readValue fuel) (passItems_of_readItems fuel) h
    rw [readItems] at h
    rw [passItems]
    cases hrest : c.skip.rest with
    | nil =>
      simp only [hrest] at h
      cases h
    | cons x rest =>
      simp only [hrest] at h ⊢
      split_ifs at h ⊢
      · exact h
      · exact hitem h
      · split at h
        · cases h
        · split_ifs at h
          exact hitem h

theorem passMembers_of_readMembers : (fuel : Nat) → {depth : Nat} → {first : Bool} →
    {c after : Cursor} → (readMembers fuel depth first c).2 = .ok after →
    passMembers fuel first c = .ok after
  | 0, _, _, _, _, h => nomatch h
  | fuel + 1, depth, first, c, after, h => by
    have hkeyed {m : Mark} {cs : List Char} (h : (readKeyed fuel depth m cs).2 = .ok after) :
        passKeyed fuel m cs = .ok after :=
      passKeyed_of_readKeyed (passValue_of_readValue fuel) (passMembers_of_readMembers fuel) h
    rw [readMembers] at h
    rw [passMembers]
    cases hrest : c.skip.rest with
    | nil =>
      simp only [hrest] at h
      cases h
    | cons x rest =>
      simp only [hrest] at h ⊢
      split_ifs at h ⊢
      · exact h
      · exact hkeyed h
      · split at h
        · cases h
        · split_ifs at h ⊢
          exact hkeyed h

end

/-! ### Texts of values -/

variable {v vs : List Char} {x : Json} {fuel : Nat}

/-- **A text of a value is passed over, however deeply it is nested.** -/
theorem passValue_written (hx : x.Exact) (hv : Blank v) (hvs : Written x vs)
    (hrest : EndsNumeral rest) (hfuel : vs.length ≤ fuel) (m : Mark) :
    ∃ m', passValue fuel ⟨v ++ (vs ++ rest), m⟩ = .ok ⟨rest, m'⟩ := by
  have hpos : 0 < vs.length := hvs.length_pos hx
  obtain ⟨d, m', hread, -⟩ := readValue_written x rest fuel (x.depth + 1) hx hvs hrest hfuel
    (Nat.lt_succ_self _) (m.pastAll v)
  rw [← readValue_blank hv (by omega)] at hread
  exact ⟨m', passValue_of_readValue fuel (congrArg Prod.snd hread)⟩

/-- What is read behind a member does not depend on whether its value may be opened. -/
theorem readMember_written (hx : x.Exact) (hv : Blank v) (hvs : Written x vs)
    (hrest : EndsNumeral rest) (hfuel : vs.length ≤ fuel) (depth : Nat) (key : String)
    (afterKey m : Mark) :
    ∃ d settled m', readMember fuel depth key afterKey ⟨v ++ (vs ++ rest), m⟩ =
        (.cons key (some afterKey) d settled (readMembers fuel depth false ⟨rest, m'⟩).1,
          (readMembers fuel depth false ⟨rest, m'⟩).2) ∧
      (x.depth < depth → d.Holds x) := by
  have hpos : 0 < vs.length := hvs.length_pos hx
  obtain ⟨m', hpass⟩ := passValue_written hx hv hvs hrest hfuel m
  cases hread : readValue fuel depth ⟨v ++ (vs ++ rest), m⟩ with
  | mk d r =>
  have hholds : x.depth < depth → d.Holds x := by
    intro hdepth
    obtain ⟨d', m₂, hread', hd'⟩ := readValue_written x rest fuel depth hx hvs hrest hfuel hdepth
      (m.pastAll v)
    rw [← readValue_blank hv (by omega), hread] at hread'
    rwa [(Prod.mk.inj hread').1]
  cases r with
  | error e => exact ⟨d, _, m', readMember_passed hread hpass, hholds⟩
  | ok after =>
    have hafter : passValue fuel ⟨v ++ (vs ++ rest), m⟩ = .ok after :=
      passValue_of_readValue fuel (congrArg Prod.snd hread)
    obtain rfl : after = ⟨rest, m'⟩ := Except.ok.inj (hafter.symm.trans hpass)
    exact ⟨d, _, m', readMember_ok hread, hholds⟩

end Json

end Conductor

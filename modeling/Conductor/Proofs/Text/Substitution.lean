import Conductor.Proofs.Text.Occurrence
import Mathlib.Data.List.Find
import Mathlib.Data.List.Pairwise

/-!
# Substitution in one pass and in several

A table says what is put in for its patterns. Filling in the patterns one after the other looks at
what has been put in before, and filling them all in at once does not. The patterns here begin with
a mark that they have nowhere else, and none is the beginning of another, so that they cannot
overlap.

* `Text.Apart` : such a table;
* `Text.Apart.scan` : induction on a text, from one pattern to the next;
* `Text.count` : how often a pattern stands in a text;
* `Text.count_le_substitute` : a pattern that is not in the table is not lost by filling in;
* `Text.substitute_then` : **one pattern more may be filled in afterwards, if filling in the others
  does not bring it into the text;**
* `Text.substitute_then_iff` : **and only then, if what is put in begins with another letter;**
* `Text.count_lt_substitute` : filling in a text that has the pattern brings it;
* `Text.count_substitute_eq` : **filling in texts without the mark does not bring it, if it is not
  begun where they are put in;**
* `Text.count_eq_of_chain` : **two patterns more that are filled in one after the other leave what
  filling in at once leaves only if no further one of the first comes up.**
-/

namespace Conductor

namespace Text

/-! ### How often a pattern stands in a text -/

/-- How often the pattern stands in the characters; the pattern is not empty. -/
def count (p : List Char) : List Char → Nat
  | [] => 0
  | c :: rest => count p rest + if p <+: c :: rest then 1 else 0

section Count

variable {p u v : List Char} {c : Char}

theorem count_cons_pos (h : p <+: c :: v) : count p (c :: v) = count p v + 1 := by
  rw [count, if_pos h]

theorem count_cons_neg (h : ¬ p <+: c :: v) : count p (c :: v) = count p v := by
  rw [count, if_neg h, Nat.add_zero]

theorem count_pos_iff (hp : p ≠ []) : 0 < count p u ↔ p <:+: u := by
  induction u with
  | nil => simp [count, hp]
  | cons c u ih =>
    rw [List.infix_cons_iff, ← ih, count]
    split_ifs with h <;> simp [h]

theorem count_eq_zero_iff (hp : p ≠ []) : count p u = 0 ↔ ¬ p <:+: u := by
  rw [← count_pos_iff hp, Nat.pos_iff_ne_zero, not_not]

/-- What stands in the parts stands in the whole. -/
theorem count_add_le_append : count p u + count p v ≤ count p (u ++ v) := by
  induction u with
  | nil => simp [count]
  | cons c u ih =>
    rw [List.cons_append, count, count]
    by_cases h : p <+: c :: u
    · have h' : p <+: c :: (u ++ v) := h.trans (List.prefix_append _ v)
      rw [if_pos h, if_pos h']
      omega
    · rw [if_neg h]
      omega

theorem count_le_append : count p v ≤ count p (u ++ v) :=
  (Nat.le_add_left _ _).trans count_add_le_append

/-- A pattern without the separator does not reach it. -/
theorem prefix_append_cons (hc : c ∉ p) : p <+: u ++ c :: v ↔ p <+: u := by
  refine ⟨fun h => ?_, fun h => h.trans (List.prefix_append u _)⟩
  rcases List.prefix_or_prefix_of_prefix h (List.prefix_append u _) with h' | ⟨t, rfl⟩
  · exact h'
  · -- the pattern is longer than what stands before the separator
    have ht : t <+: c :: v := (List.prefix_append_right_inj u).1 h
    rw [eq_nil_of_prefix_cons (fun h => hc (List.mem_append_right u h)) ht, List.append_nil]

/-- **A pattern without the separator stands before it or after it.** -/
theorem count_append_cons (hp : p ≠ []) (hc : c ∉ p) :
    count p (u ++ c :: v) = count p u + count p v := by
  induction u with
  | nil =>
    rw [List.nil_append, count_cons_neg fun h => hp (eq_nil_of_prefix_cons hc h), count,
      Nat.zero_add]
  | cons d u ih =>
    have hiff : p <+: d :: (u ++ c :: v) ↔ p <+: d :: u := prefix_append_cons (u := d :: u) hc
    rw [List.cons_append, count, count, ih]
    simp only [hiff]
    omega

end Count

/-! ### Patterns that cannot overlap -/

/-- None of the two is the beginning of the other. -/
def Unlike (a b : List Char) : Prop := ¬ a <+: b ∧ ¬ b <+: a

instance (a b : List Char) : Decidable (Unlike a b) := inferInstanceAs (Decidable (_ ∧ _))

instance : Std.Symm fun a b : List Char × List Char => Unlike a.1 b.1 := ⟨fun _ _ h => h.symm⟩

theorem Unlike.not_prefix_append {a b : List Char} (h : Unlike a b) (v : List Char) :
    ¬ a <+: b ++ v := fun ha =>
  (List.prefix_or_prefix_of_prefix ha (List.prefix_append b v)).elim h.1 h.2

/-- The patterns begin with the mark and have it nowhere else; none is the beginning of another. -/
structure Apart (mark : Char) (table : List (List Char × List Char)) : Prop where
  marked : ∀ e ∈ table, ∃ w, e.1 = mark :: w ∧ mark ∉ w
  unlike : table.Pairwise fun a b => Unlike a.1 b.1

variable {mark : Char} {table : List (List Char × List Char)} {p by_ l v : List Char}
  {e : List Char × List Char}

namespace Apart

theorem ne_nil (hT : Apart mark table) (he : e ∈ table) : e.1 ≠ [] := by
  obtain ⟨w, hw, -⟩ := hT.marked e he
  rw [hw]
  exact List.cons_ne_nil _ _

theorem sublist (hT : Apart mark table) {part : List (List Char × List Char)}
    (h : part.Sublist table) : Apart mark part :=
  ⟨fun e he => hT.marked e (h.subset he), hT.unlike.sublist h⟩

/-- One entry at most has its pattern in a place. -/
theorem unique (hT : Apart mark table) {a b : List Char × List Char} (ha : a ∈ table)
    (hb : b ∈ table) (hal : a.1 <+: l) (hbl : b.1 <+: l) : a = b := by
  by_contra hne
  have h := hT.unlike.forall ha hb hne
  exact (List.prefix_or_prefix_of_prefix hal hbl).elim h.1 h.2

/-- A pattern does not stand where the mark does not. -/
theorem not_prefix_cons (hT : Apart mark table) (he : e ∈ table) {c : Char} (hc : mark ≠ c) :
    ¬ e.1 <+: c :: v := by
  obtain ⟨w, hw, -⟩ := hT.marked e he
  rw [hw]
  exact fun h => hc (List.cons_prefix_cons.1 h).1

/-! Counting one pattern of the table where another one stands. -/

theorem count_append_of_not_mem (hT : Apart mark table) (he : e ∈ table) {u : List Char}
    (hu : mark ∉ u) : count e.1 (u ++ v) = count e.1 v := by
  induction u with
  | nil => rfl
  | cons c u ih =>
    obtain ⟨hc, hu⟩ := not_or.1 (List.mem_cons.not.1 hu)
    rw [List.cons_append, count_cons_neg (hT.not_prefix_cons he hc), ih hu]

theorem count_self (hT : Apart mark table) (he : e ∈ table) :
    count e.1 (e.1 ++ v) = count e.1 v + 1 := by
  obtain ⟨w, hw, hm⟩ := hT.marked e he
  have h : e.1 <+: mark :: (w ++ v) := by rw [hw]; exact List.prefix_append (mark :: w) v
  calc count e.1 (e.1 ++ v)
      = count e.1 (mark :: (w ++ v)) := by rw [hw]; rfl
    _ = count e.1 (w ++ v) + 1 := count_cons_pos h
    _ = count e.1 v + 1 := by rw [count_append_of_not_mem hT he hm]

theorem count_other (hT : Apart mark table) {a : List Char × List Char} (ha : a ∈ table)
    (he : e ∈ table) (hne : e ≠ a) : count e.1 (a.1 ++ v) = count e.1 v := by
  obtain ⟨w, hw, hm⟩ := hT.marked a ha
  have hnot : ¬ e.1 <+: a.1 ++ v := (hT.unlike.forall he ha hne).not_prefix_append v
  rw [hw, List.cons_append] at hnot ⊢
  rw [count_cons_neg hnot, count_append_of_not_mem hT he hm]

/-! A table with one pattern more. -/

section Last

variable (hT : Apart mark (table ++ [(p, by_)]))

include hT

theorem init : Apart mark table := hT.sublist (List.sublist_append_left _ _)

theorem last : Apart mark [(p, by_)] := hT.sublist (List.sublist_append_right _ _)

theorem unlike_last (he : e ∈ table) : Unlike e.1 p :=
  (List.pairwise_append.1 hT.unlike).2.2 e he _ List.mem_cons_self

/-- **Induction on a text, from one pattern to the next.** -/
@[elab_as_elim]
theorem scan {motive : List Char → Prop} (nil : motive [])
    (place : ∀ e ∈ table, ∀ v, motive v → motive (e.1 ++ v))
    (last : ∀ v, motive v → motive (p ++ v))
    (letter : ∀ c v, (∀ e ∈ table, ¬ e.1 <+: c :: v) → ¬ p <+: c :: v → motive v →
      motive (c :: v)) :
    ∀ l, motive l
  | [] => nil
  | c :: v => by
    by_cases h : ∃ e ∈ table ++ [(p, by_)], e.1 <+: c :: v
    · obtain ⟨e, he, v', hv⟩ := h
      have hlt : v'.length < (c :: v).length := by
        have := List.length_pos_of_ne_nil (hT.ne_nil he)
        rw [← hv, List.length_append]
        omega
      have hrest : motive v' := scan nil place last letter v'
      rw [← hv]
      rcases List.mem_append.1 he with he | he
      · exact place e he v' hrest
      · obtain rfl := List.mem_singleton.1 he
        exact last v' hrest
    · push Not at h
      exact letter c v (fun e he => h e (List.mem_append_left _ he))
        (h (p, by_) (List.mem_append_right _ List.mem_cons_self)) (scan nil place last letter v)
  termination_by l => l.length
  decreasing_by
    · exact hlt
    · exact Nat.lt_succ_self _

theorem last_ne_nil : p ≠ [] := hT.last.ne_nil List.mem_cons_self

theorem count_last_self : count p (p ++ v) = count p v + 1 :=
  hT.last.count_self List.mem_cons_self

theorem ne_last (he : e ∈ table) : e ≠ (p, by_) := fun h =>
  (hT.unlike_last he).1 (h ▸ List.prefix_rfl)

theorem count_last_place (he : e ∈ table) : count p (e.1 ++ v) = count p v :=
  hT.count_other (List.mem_append_left _ he)
    (List.mem_append_right _ (List.mem_singleton_self (p, by_))) (hT.ne_last he).symm

theorem count_place_last (he : e ∈ table) : count e.1 (p ++ v) = count e.1 v :=
  hT.count_other (List.mem_append_right _ (List.mem_singleton_self (p, by_)))
    (List.mem_append_left _ he) (hT.ne_last he)

end Last

end Apart

/-! ### Where a text is read -/

theorem substituteFrom_skip (k : Nat) :
    substituteFrom table k l = substituteFrom table 0 (l.drop k) := by
  induction l generalizing k with
  | nil => cases k <;> rfl
  | cons c l ih =>
    cases k with
    | zero => rfl
    | succ k => rw [substituteFrom, ih, List.drop_succ_cons]

/-- One pattern is replaced as a table of one entry is filled in. -/
theorem replaceFrom_eq (k : Nat) : replaceFrom p by_ k l = substituteFrom [(p, by_)] k l := by
  induction l generalizing k with
  | nil => cases k <;> rfl
  | cons c l ih =>
    cases k with
    | succ k => rw [replaceFrom, substituteFrom, ih]
    | zero => cases h : p.isPrefixOf (c :: l) <;> simp [replaceFrom, substituteFrom, h, ih]

theorem substituteFrom_letter {c : Char} (h : ∀ e ∈ table, ¬ e.1 <+: c :: v) :
    substituteFrom table 0 (c :: v) = c :: substituteFrom table 0 v := by
  have hnone : table.find? (fun e => e.1.isPrefixOf (c :: v)) = none := by
    rw [List.find?_eq_none]
    exact fun e he => by simpa using h e he
  rw [substituteFrom, hnone]

theorem substituteFrom_letter_last {c : Char} (h : ∀ e ∈ table, ¬ e.1 <+: c :: v)
    (hp : ¬ p <+: c :: v) :
    substituteFrom (table ++ [(p, by_)]) 0 (c :: v) =
      c :: substituteFrom (table ++ [(p, by_)]) 0 v :=
  substituteFrom_letter (List.forall_mem_append.2 ⟨h, by simpa using hp⟩)

/-- **The parts that a separator divides are filled in for themselves.** -/
theorem substituteFrom_append_cons {c : Char} {u : List Char} {k : Nat} (hk : k ≤ u.length)
    (hne : ∀ e ∈ table, e.1 ≠ []) (hc : ∀ e ∈ table, c ∉ e.1) :
    substituteFrom table k (u ++ c :: v) =
      substituteFrom table k u ++ c :: substituteFrom table 0 v := by
  induction u generalizing k with
  | nil =>
    obtain rfl := Nat.le_zero.1 hk
    exact substituteFrom_letter fun e he h => hne e he (eq_nil_of_prefix_cons (hc e he) h)
  | cons d u ih =>
    cases k with
    | succ k => exact ih (Nat.le_of_succ_le_succ hk)
    | zero =>
      have hsame : table.find? (fun e => e.1.isPrefixOf (d :: (u ++ c :: v))) =
          table.find? (fun e => e.1.isPrefixOf (d :: u)) := by
        refine List.find?_congr fun e he => Bool.eq_iff_iff.2 ?_
        rw [List.isPrefixOf_iff_prefix, List.isPrefixOf_iff_prefix]
        exact prefix_append_cons (u := d :: u) (hc e he)
      rw [List.cons_append, substituteFrom, substituteFrom, hsame]
      cases hf : table.find? (fun e => e.1.isPrefixOf (d :: u)) with
      | none => rw [ih (Nat.zero_le _), List.cons_append]
      | some e =>
        have hlen : e.1.length ≤ (d :: u).length := by
          have h : e.1 <+: d :: u := by simpa using List.find?_some hf
          exact h.length_le
        rw [List.length_cons] at hlen
        change e.2 ++ _ = e.2 ++ _ ++ _
        rw [ih (by omega), List.append_assoc]

/-- Nothing is filled in where no pattern stands. -/
theorem substituteFrom_of_none (h : ∀ e ∈ table, ¬ e.1 <:+: l) : substituteFrom table 0 l = l := by
  induction l with
  | nil => rfl
  | cons c l ih =>
    simp only [List.infix_cons_iff, not_or] at h
    rw [substituteFrom_letter fun e he => (h e he).1, ih fun e he => (h e he).2]

@[simp] theorem substituteFrom_nil : substituteFrom [] 0 l = l :=
  substituteFrom_of_none (List.forall_mem_nil _)

namespace Apart

theorem substituteFrom_place (hT : Apart mark table) (he : e ∈ table) :
    substituteFrom table 0 (e.1 ++ v) = e.2 ++ substituteFrom table 0 v := by
  obtain ⟨w, hw, -⟩ := hT.marked e he
  have hprefix : e.1 <+: mark :: (w ++ v) := by rw [hw]; exact List.prefix_append (mark :: w) v
  have hfind : table.find? (fun e => e.1.isPrefixOf (mark :: (w ++ v))) = some e := by
    cases hf : table.find? (fun e => e.1.isPrefixOf (mark :: (w ++ v))) with
    | none => exact absurd hprefix (by simpa using List.find?_eq_none.1 hf e he)
    | some a =>
      have ha : a.1 <+: mark :: (w ++ v) := by simpa using List.find?_some hf
      rw [hT.unique (List.mem_of_find?_eq_some hf) he ha hprefix]
  calc substituteFrom table 0 (e.1 ++ v)
      = substituteFrom table 0 (mark :: (w ++ v)) := by rw [hw]; rfl
    _ = e.2 ++ substituteFrom table (e.1.length - 1) (w ++ v) := by rw [substituteFrom, hfind]
    _ = e.2 ++ substituteFrom table 0 v := by
      rw [substituteFrom_skip, hw, List.length_cons, Nat.add_sub_cancel, List.drop_left]

/-- Nothing is filled in where the mark does not stand. -/
theorem substituteFrom_append_of_not_mem (hT : Apart mark table) {u : List Char} (hu : mark ∉ u) :
    substituteFrom table 0 (u ++ v) = u ++ substituteFrom table 0 v := by
  induction u with
  | nil => rfl
  | cons c u ih =>
    obtain ⟨hc, hu⟩ := not_or.1 (List.mem_cons.not.1 hu)
    rw [List.cons_append, substituteFrom_letter fun e he => hT.not_prefix_cons he hc, ih hu,
      List.cons_append]

/-- A pattern that is not in the table is left alone. -/
theorem substituteFrom_last (hT : Apart mark (table ++ [(p, by_)])) :
    substituteFrom table 0 (p ++ v) = p ++ substituteFrom table 0 v := by
  obtain ⟨w, hw : p = mark :: w, hm⟩ := hT.last.marked _ List.mem_cons_self
  have hletter : ∀ e ∈ table, ¬ e.1 <+: p ++ v := fun e he =>
    (hT.unlike_last he).not_prefix_append v
  rw [hw, List.cons_append] at hletter ⊢
  rw [substituteFrom_letter hletter, hT.init.substituteFrom_append_of_not_mem hm, List.cons_append]

theorem substituteFrom_last_place (hT : Apart mark (table ++ [(p, by_)])) :
    substituteFrom (table ++ [(p, by_)]) 0 (p ++ v) =
      by_ ++ substituteFrom (table ++ [(p, by_)]) 0 v :=
  hT.substituteFrom_place (List.mem_append_right _ (List.mem_singleton_self (p, by_)))

end Apart

/-! ### Filling in one pattern more -/

/-- What brings no pattern is passed over. -/
theorem substituteFrom_append_of_count {u : List Char} (h : count p (u ++ v) = count p v) :
    substituteFrom [(p, by_)] 0 (u ++ v) = u ++ substituteFrom [(p, by_)] 0 v := by
  induction u with
  | nil => rfl
  | cons c u ih =>
    rw [List.cons_append, count] at h
    have hle : count p v ≤ count p (u ++ v) := count_le_append
    have hnot : ¬ p <+: c :: (u ++ v) := fun hp => by rw [if_pos hp] at h; omega
    rw [if_neg hnot, Nat.add_zero] at h
    rw [List.cons_append, substituteFrom_letter (by simpa using hnot), ih h, List.cons_append]

section Then

variable (hT : Apart mark (table ++ [(p, by_)]))

include hT

/-- **A pattern that is not in the table is not lost by filling in.** -/
theorem count_le_substitute (l : List Char) : count p l ≤ count p (substituteFrom table 0 l) := by
  induction l using hT.scan with
  | nil => exact Nat.zero_le _
  | place e he v ih =>
    rw [hT.count_last_place he, hT.init.substituteFrom_place he]
    exact ih.trans count_le_append
  | last v ih =>
    rw [hT.substituteFrom_last, hT.count_last_self, hT.count_last_self]
    exact Nat.succ_le_succ ih
  | letter c v hinit hlast ih =>
    rw [substituteFrom_letter hinit, count_cons_neg hlast]
    exact ih.trans (count_le_append (u := [c]))

/-- **One pattern more may be filled in afterwards**, if filling in the others does not bring it. -/
theorem substitute_then (h : count p (substituteFrom table 0 l) = count p l) :
    substituteFrom [(p, by_)] 0 (substituteFrom table 0 l) =
      substituteFrom (table ++ [(p, by_)]) 0 l := by
  induction l using hT.scan with
  | nil => rfl
  | place e he v ih =>
    -- what is put in brings no pattern, and neither does the rest
    have hle := count_le_substitute hT v
    have happend : count p (substituteFrom table 0 v) ≤
        count p (e.2 ++ substituteFrom table 0 v) := count_le_append
    rw [hT.init.substituteFrom_place he] at h ⊢
    rw [hT.count_last_place he] at h
    rw [hT.substituteFrom_place (List.mem_append_left _ he),
      substituteFrom_append_of_count (by omega), ih (by omega)]
  | last v ih =>
    rw [hT.substituteFrom_last] at h ⊢
    rw [hT.count_last_self, hT.count_last_self] at h
    rw [hT.last.substituteFrom_place List.mem_cons_self, ih (Nat.succ.inj h),
      hT.substituteFrom_last_place]
  | letter c v hinit hlast ih =>
    have hle := count_le_substitute hT v
    have happend : count p (substituteFrom table 0 v) ≤
        count p ([c] ++ substituteFrom table 0 v) := count_le_append
    rw [substituteFrom_letter hinit, count_cons_neg hlast, ← List.singleton_append] at h
    rw [substituteFrom_letter hinit, substituteFrom_letter_last hinit hlast, ← ih (by omega)]
    exact substituteFrom_append_of_count (u := [c]) (by omega)

/-- **Filling in a text that has the pattern brings it.** -/
theorem count_lt_substitute (he : e ∈ table) (hp : p <:+: e.2) (hl : e.1 <:+: l) :
    count p l < count p (substituteFrom table 0 l) := by
  have hmem : e ∈ table ++ [(p, by_)] := List.mem_append_left _ he
  rw [← count_pos_iff hT.last_ne_nil] at hp
  rw [← count_pos_iff (hT.ne_nil hmem)] at hl
  induction l using hT.scan with
  | nil => simp [count] at hl
  | place a ha v ih =>
    rw [hT.count_last_place ha, hT.init.substituteFrom_place ha]
    rcases eq_or_ne e a with rfl | hne
    · calc count p v
          ≤ count p (substituteFrom table 0 v) := count_le_substitute hT v
        _ < count p e.2 + count p (substituteFrom table 0 v) := Nat.lt_add_of_pos_left hp
        _ ≤ count p (e.2 ++ substituteFrom table 0 v) := count_add_le_append
    · rw [hT.init.count_other ha he hne] at hl
      exact (ih hl).trans_le count_le_append
  | last v ih =>
    rw [hT.count_place_last he] at hl
    rw [hT.substituteFrom_last, hT.count_last_self, hT.count_last_self]
    exact Nat.succ_lt_succ (ih hl)
  | letter c v hinit hlast ih =>
    rw [count_cons_neg (hinit e he)] at hl
    rw [substituteFrom_letter hinit, count_cons_neg hlast]
    exact (ih hl).trans_le (count_le_append (u := [c]))

end Then

/-! ### What is noticed where it is put in -/

section Noticed

variable {q s : List Char} {c : Char}

/-- What begins with another letter than the mark is not put in where a letter is left. -/
theorem substitute_cons_cancel (hq : Apart mark [(q, c :: s)]) (hc : mark ≠ c) {d : Char}
    {x z : List Char} (h : substituteFrom [(q, c :: s)] 0 (d :: x) = d :: z) :
    ¬ q <+: d :: x ∧ substituteFrom [(q, c :: s)] 0 x = z := by
  by_cases hd : q <+: d :: x
  · exfalso
    obtain ⟨w, hw : q = mark :: w, -⟩ := hq.marked _ List.mem_cons_self
    obtain ⟨y, hy⟩ := hd
    rw [← hy, hq.substituteFrom_place List.mem_cons_self] at h
    rw [hw] at hy
    exact hc ((List.cons.inj hy).1.trans (List.cons.inj h).1.symm)
  · rw [substituteFrom_letter (by simpa using hd)] at h
    exact ⟨hd, (List.cons.inj h).2⟩

theorem substitute_append_cancel (hq : Apart mark [(q, c :: s)]) (hc : mark ≠ c) {u x z : List Char}
    (h : substituteFrom [(q, c :: s)] 0 (u ++ x) = u ++ z) :
    count q (u ++ x) = count q x ∧ substituteFrom [(q, c :: s)] 0 x = z := by
  induction u with
  | nil => exact ⟨rfl, h⟩
  | cons d u ih =>
    rw [List.cons_append] at h ⊢
    obtain ⟨hd, hrest⟩ := substitute_cons_cancel hq hc h
    rw [count_cons_neg hd]
    exact ih hrest

/-- **And only then**, if what is put in begins with another letter than the mark. -/
theorem substitute_then_iff (hT : Apart mark (table ++ [(q, c :: s)])) (hc : mark ≠ c) :
    substituteFrom [(q, c :: s)] 0 (substituteFrom table 0 l) =
        substituteFrom (table ++ [(q, c :: s)]) 0 l ↔
      count q (substituteFrom table 0 l) = count q l := by
  refine ⟨fun h => ?_, substitute_then hT⟩
  induction l using hT.scan with
  | nil => rfl
  | place e he v ih =>
    rw [hT.substituteFrom_place (List.mem_append_left _ he), hT.init.substituteFrom_place he] at h
    obtain ⟨hcount, hrest⟩ := substitute_append_cancel hT.last hc h
    rw [hT.init.substituteFrom_place he, hcount, hT.count_last_place he, ih hrest]
  | last v ih =>
    rw [hT.substituteFrom_last_place, hT.substituteFrom_last,
      hT.last.substituteFrom_place List.mem_cons_self] at h
    rw [hT.substituteFrom_last, hT.count_last_self, hT.count_last_self,
      ih (List.append_cancel_left h)]
  | letter d v hinit hlast ih =>
    rw [substituteFrom_letter_last hinit hlast, substituteFrom_letter hinit] at h
    obtain ⟨hd, hrest⟩ := substitute_cons_cancel hT.last hc h
    rw [substituteFrom_letter hinit, count_cons_neg hd, count_cons_neg hlast, ih hrest]

end Noticed

/-! ### When nothing is brought -/

/-- The pattern is not begun where another one stands. -/
def Unbegun (p q l : List Char) : Prop :=
  ∀ x y, p = x ++ y → x ≠ [] → y ≠ [] → ¬ x ++ q <:+: l

theorem Unbegun.of_suffix {q : List Char} (h : Unbegun p q l) (hv : v <:+ l) : Unbegun p q v :=
  fun x y hp hx hy hq => h x y hp hx hy (hq.trans hv.isInfix)

/-- The beginning of what a text becomes stands there before, or it runs into what is put in. -/
theorem prefix_substitute (hT : Apart mark table) {u : List Char}
    (h : u <+: substituteFrom table 0 l) :
    u <+: l ∨ ∃ e ∈ table, ∃ x y v, u = x ++ y ∧ y ≠ [] ∧ x ++ e.1 <+: l ∧ y <+: e.2 ++ v := by
  induction u generalizing l with
  | nil => exact .inl List.nil_prefix
  | cons d u ih =>
    by_cases hplace : ∃ e ∈ table, e.1 <+: l
    · obtain ⟨e, he, v, rfl⟩ := hplace
      rw [hT.substituteFrom_place he] at h
      exact .inr ⟨e, he, [], d :: u, _, rfl, List.cons_ne_nil d u, List.prefix_append _ v, h⟩
    · push Not at hplace
      cases l with
      | nil => exact .inl h
      | cons c v =>
        rw [substituteFrom_letter hplace] at h
        obtain ⟨rfl, hu⟩ := List.cons_prefix_cons.1 h
        rcases ih hu with hu | ⟨e, he, x, y, w, rfl, hy, hx, hyw⟩
        · exact .inl (List.cons_prefix_cons.2 ⟨rfl, hu⟩)
        · exact .inr ⟨e, he, d :: x, y, w, rfl, hy, List.cons_prefix_cons.2 ⟨rfl, hx⟩, hyw⟩

/-- **Texts without the mark bring no pattern**, if it is not begun where they are put in. -/
theorem count_substitute_eq (hT : Apart mark (table ++ [(p, by_)]))
    (hmark : ∀ e ∈ table, mark ∉ e.2) (hunbegun : ∀ e ∈ table, Unbegun p e.1 l) :
    count p (substituteFrom table 0 l) = count p l := by
  induction l using hT.scan with
  | nil => rfl
  | place e he v ih =>
    rw [hT.init.substituteFrom_place he, hT.count_last_place he,
      hT.last.count_append_of_not_mem List.mem_cons_self (hmark e he)]
    exact ih fun e he => (hunbegun e he).of_suffix (List.suffix_append _ v)
  | last v ih =>
    rw [hT.substituteFrom_last, hT.count_last_self, hT.count_last_self, ih]
    exact fun e he => (hunbegun e he).of_suffix (List.suffix_append _ v)
  | letter c v hinit hlast ih =>
    have hnot : ¬ p <+: c :: substituteFrom table 0 v := by
      intro h
      rcases List.prefix_cons_iff.1 h with h | ⟨u, rfl, hu⟩
      · exact hT.last_ne_nil h
      · rcases prefix_substitute hT.init hu with hu | ⟨e, he, x, y, -, rfl, hy, hx, -⟩
        · exact hlast (List.cons_prefix_cons.2 ⟨rfl, hu⟩)
        · exact hunbegun e he (c :: x) y rfl (List.cons_ne_nil c x) hy
            (List.cons_prefix_cons.2 ⟨rfl, hx⟩).isInfix
    rw [substituteFrom_letter hinit, count_cons_neg hnot, count_cons_neg hlast]
    exact ih fun e he => (hunbegun e he).of_suffix (List.suffix_cons c v)

/-! ### Two patterns more, one after the other -/

/-- What stands at the beginning of a text without the mark stands there in the other. -/
def Copies (mark : Char) (x z : List Char) : Prop := ∀ w, mark ∉ w → w <+: x → w <+: z

theorem Copies.append {x z : List Char} (h : Copies mark x z) (u : List Char) :
    Copies mark (u ++ x) (u ++ z) := by
  intro w hw hx
  rcases List.prefix_or_prefix_of_prefix hx (List.prefix_append u x) with hu | ⟨y, rfl⟩
  · exact hu.trans (List.prefix_append u z)
  · have hy : y <+: z := h y (fun hm => hw (List.mem_append_right u hm))
      ((List.prefix_append_right_inj u).1 hx)
    exact (List.prefix_append_right_inj u).2 hy

theorem copies_of_marked {p x z : List Char} (hp : ∃ w, p = mark :: w) :
    Copies mark (p ++ x) z := by
  obtain ⟨w, rfl⟩ := hp
  intro u hu hx
  rcases List.prefix_cons_iff.1 hx with rfl | ⟨y, rfl, -⟩
  · exact List.nil_prefix
  · exact absurd List.mem_cons_self hu

section Chain

variable {q t s : List Char} {c : Char}

variable (hT : Apart mark ((table ++ [(p, t)]) ++ [(q, c :: s)])) (hc : mark ≠ c) (hcp : c ∉ p)
  (ht : Unlike p t)

include hT hc hcp ht

/-- A pattern that is filled in is noticed where a letter should be left. -/
theorem chain_cons_cancel {d : Char} {x z : List Char} (hcopies : Copies mark x z)
    (h : substituteFrom [(q, c :: s)] 0 (substituteFrom [(p, t)] 0 (d :: x)) = d :: z) :
    ¬ p <+: d :: x ∧ substituteFrom [(q, c :: s)] 0 (substituteFrom [(p, t)] 0 x) = z := by
  have hp : Apart mark [(p, t)] := hT.init.last
  by_cases hd : p <+: d :: x
  · exfalso
    obtain ⟨w, hw : p = mark :: w, hm⟩ := hp.marked _ List.mem_cons_self
    -- the other letters of the pattern stand in both texts, and so the pattern does
    have hz : p <+: d :: z := by
      rw [hw] at hd ⊢
      obtain ⟨rfl, hx⟩ := List.cons_prefix_cons.1 hd
      exact List.cons_prefix_cons.2 ⟨rfl, hcopies w hm hx⟩
    obtain ⟨y, hy⟩ := hd
    rw [← hy, hp.substituteFrom_place List.mem_cons_self] at h
    rw [← h] at hz
    rcases prefix_substitute hT.last hz with hpt | ⟨e, he, x', y', v, hpxy, hy', -, hyv⟩
    · exact ht.not_prefix_append _ hpt
    · obtain rfl := List.mem_singleton.1 he
      obtain ⟨b, y', rfl⟩ := List.exists_cons_of_ne_nil hy'
      obtain ⟨rfl, -⟩ := List.cons_prefix_cons.1 hyv
      exact hcp (hpxy ▸ List.mem_append_right x' List.mem_cons_self)
  · rw [substituteFrom_letter (by simpa using hd)] at h
    exact ⟨hd, (substitute_cons_cancel hT.last hc h).2⟩

theorem chain_append_cancel {u x z : List Char} (hcopies : Copies mark x z)
    (h : substituteFrom [(q, c :: s)] 0 (substituteFrom [(p, t)] 0 (u ++ x)) = u ++ z) :
    count p (u ++ x) = count p x ∧
      substituteFrom [(q, c :: s)] 0 (substituteFrom [(p, t)] 0 x) = z := by
  induction u with
  | nil => exact ⟨rfl, h⟩
  | cons d u ih =>
    obtain ⟨hd, hrest⟩ := chain_cons_cancel hT hc hcp ht (hcopies.append u) h
    rw [List.cons_append, count_cons_neg hd]
    exact ih hrest

omit hc hcp ht in
/-- Letters without the mark are left, whichever patterns are filled in. -/
theorem copies_substitute (l : List Char) : Copies mark (substituteFrom table 0 l)
    (substituteFrom ((table ++ [(p, t)]) ++ [(q, c :: s)]) 0 l) := by
  have hq : Apart mark (table ++ [(q, c :: s)]) :=
    hT.sublist ((List.sublist_append_left table [(p, t)]).append (.refl _))
  induction l using hT.scan with
  | nil => exact fun _ _ h => h
  | place e he v ih =>
    rw [hT.substituteFrom_place (List.mem_append_left _ he)]
    rcases List.mem_append.1 he with he | he
    · rw [hT.init.init.substituteFrom_place he]
      exact ih.append e.2
    · obtain rfl := List.mem_singleton.1 he
      rw [hT.init.substituteFrom_last]
      obtain ⟨w, hw, -⟩ := hT.init.last.marked _ List.mem_cons_self
      exact copies_of_marked ⟨w, hw⟩
  | last v ih =>
    rw [hq.substituteFrom_last]
    obtain ⟨w, hw, -⟩ := hT.last.marked _ List.mem_cons_self
    exact copies_of_marked ⟨w, hw⟩
  | letter d v hinit hlast ih =>
    rw [substituteFrom_letter_last hinit hlast,
      substituteFrom_letter (List.forall_mem_append.1 hinit).1]
    exact ih.append [d]

/-- **Two patterns that are filled in afterwards, one after the other, leave what filling in at once
leaves** only if no further one of the first comes up. -/
theorem count_eq_of_chain (l : List Char)
    (h : substituteFrom [(q, c :: s)] 0 (substituteFrom [(p, t)] 0 (substituteFrom table 0 l)) =
      substituteFrom ((table ++ [(p, t)]) ++ [(q, c :: s)]) 0 l) :
    count p (substituteFrom table 0 l) = count p l := by
  have hq : Apart mark (table ++ [(q, c :: s)]) :=
    hT.sublist ((List.sublist_append_left table [(p, t)]).append (.refl _))
  have hpq : Apart mark ([(p, t)] ++ [(q, c :: s)]) :=
    hT.sublist ((List.sublist_append_right table [(p, t)]).append (.refl _))
  have hother (x : List Char) : count p (q ++ x) = count p x :=
    hpq.count_place_last (List.mem_singleton_self (p, t))
  induction l using hT.scan with
  | nil => rfl
  | place e he v ih =>
    rw [hT.substituteFrom_place (List.mem_append_left _ he)] at h
    rcases List.mem_append.1 he with he | he
    · rw [hT.init.init.substituteFrom_place he] at h ⊢
      obtain ⟨hcount, hrest⟩ := chain_append_cancel hT hc hcp ht (copies_substitute hT v) h
      rw [hcount, hT.init.count_last_place he, ih hrest]
    · obtain rfl := List.mem_singleton.1 he
      rw [hT.init.substituteFrom_last] at h ⊢
      rw [hT.init.last.substituteFrom_place List.mem_cons_self] at h
      rw [hT.init.count_last_self, hT.init.count_last_self,
        ih (substitute_append_cancel hT.last hc h).2]
  | last v ih =>
    rw [hT.substituteFrom_last_place, hq.substituteFrom_last, hpq.substituteFrom_last,
      hT.last.substituteFrom_place List.mem_cons_self] at h
    rw [hq.substituteFrom_last, hother, hother, ih (List.append_cancel_left h)]
  | letter d v hinit hlast ih =>
    obtain ⟨htable, hp⟩ := List.forall_mem_append.1 hinit
    rw [substituteFrom_letter_last hinit hlast, substituteFrom_letter htable] at h
    obtain ⟨hd, hrest⟩ := chain_cons_cancel hT hc hcp ht (copies_substitute hT v) h
    rw [substituteFrom_letter htable, count_cons_neg hd, ih hrest, count_cons_neg]
    exact hp (p, t) List.mem_cons_self

end Chain

end Text

end Conductor

import Conductor.Tool.Call

/-!
# Equality of values

The comparison of values, and with it that of calls, is symmetric and transitive: which of several
equal calls is meant makes no difference.

* `Json.agree_comm`, `Json.agree_trans` : a comparison is as symmetric and as transitive as that of
  its numbers;
* `Json.get?_rel` : equal values have equal members under the same keys;
* `Call.same_comm`, `Call.same_trans` : **so is that of calls.**
-/

namespace Conductor

namespace Json

variable {eq : Number → Number → Bool}

/-! ### Symmetry -/

mutual

theorem agree_comm (h : ∀ m n, eq m n = eq n m) : ∀ a b, agree eq a b = agree eq b a
  | .null, b => by cases b <;> rfl
  | .bool x, b => by cases b <;> simp only [agree]; exact BEq.comm
  | .number m, b => by cases b <;> simp only [agree]; exact h ..
  | .string s, b => by cases b <;> simp only [agree]; exact BEq.comm
  | .array as, b => by cases b <;> simp only [agree]; exact agreeItems_comm h ..
  | .object as, b => by cases b <;> simp only [agree]; exact agreeMembers_comm h ..

theorem agreeItems_comm (h : ∀ m n, eq m n = eq n m) :
    ∀ as bs, agreeItems eq as bs = agreeItems eq bs as
  | [], bs => by cases bs <;> rfl
  | a :: as, [] => rfl
  | a :: as, b :: bs => by simp only [agreeItems, agree_comm h a b, agreeItems_comm h as bs]

theorem agreeMembers_comm (h : ∀ m n, eq m n = eq n m) :
    ∀ as bs, agreeMembers eq as bs = agreeMembers eq bs as
  | [], bs => by cases bs <;> rfl
  | (k, a) :: as, [] => rfl
  | (k, a) :: as, (l, b) :: bs => by
    simp only [agreeMembers, agree_comm h a b, agreeMembers_comm h as bs, BEq.comm (a := k)]

end

/-! ### Transitivity -/

mutual

theorem agree_trans (h : ∀ l m n, eq l m = true → eq m n = true → eq l n = true) :
    ∀ a b c, agree eq a b = true → agree eq b c = true → agree eq a c = true
  | .null, .null, c, _, hc => hc
  | .bool x, .bool y, .bool z, hb, hc => by
    simp only [agree, beq_iff_eq] at *
    exact hb.trans hc
  | .number l, .number m, .number n, hb, hc => h l m n hb hc
  | .string s, .string t, .string u, hb, hc => by
    simp only [agree, beq_iff_eq] at *
    exact hb.trans hc
  | .array as, .array bs, .array cs, hb, hc => agreeItems_trans h as bs cs hb hc
  | .object as, .object bs, .object cs, hb, hc => agreeMembers_trans h as bs cs hb hc

theorem agreeItems_trans (h : ∀ l m n, eq l m = true → eq m n = true → eq l n = true) :
    ∀ as bs cs, agreeItems eq as bs = true → agreeItems eq bs cs = true →
      agreeItems eq as cs = true
  | [], [], cs, _, hc => hc
  | a :: as, b :: bs, c :: cs, hb, hc => by
    simp only [agreeItems, Bool.and_eq_true] at *
    exact ⟨agree_trans h a b c hb.1 hc.1, agreeItems_trans h as bs cs hb.2 hc.2⟩

theorem agreeMembers_trans (h : ∀ l m n, eq l m = true → eq m n = true → eq l n = true) :
    ∀ as bs cs, agreeMembers eq as bs = true → agreeMembers eq bs cs = true →
      agreeMembers eq as cs = true
  | [], [], cs, _, hc => hc
  | (j, a) :: as, (k, b) :: bs, (l, c) :: cs, hb, hc => by
    simp only [agreeMembers, Bool.and_eq_true, beq_iff_eq] at *
    exact ⟨⟨hb.1.1.trans hc.1.1, agree_trans h a b c hb.1.2 hc.1.2⟩,
      agreeMembers_trans h as bs cs hb.2 hc.2⟩

end

/-! ### Members -/

theorem lookup_rel : ∀ {as bs}, agreeMembers eq as bs = true → ∀ k,
    Option.Rel (fun a b => agree eq a b = true) (as.lookup k) (bs.lookup k)
  | [], [], _, _ => .none
  | (i, a) :: as, (j, b) :: bs, h, k => by
    simp only [agreeMembers, Bool.and_eq_true, beq_iff_eq] at h
    obtain ⟨⟨rfl, hab⟩, hrest⟩ := h
    rw [List.lookup_cons, List.lookup_cons]
    cases k == i with
    | true => exact .some hab
    | false => exact lookup_rel hrest k

/-- **Equal values have equal members under the same keys.** -/
theorem get?_rel {a b : Json} (h : agree eq a b = true) (k : String) :
    Option.Rel (fun a b => agree eq a b = true) (a.get? k) (b.get? k) := by
  cases a <;> cases b <;> simp only [agree, Bool.false_eq_true] at h
  case object => exact lookup_rel h k
  all_goals exact .none

/-- Of equal values both are `null` or neither. -/
theorem eq_null_iff_of_agree {a b : Json} (h : agree eq a b = true) : a = .null ↔ b = .null := by
  cases a <;> cases b <;> simp [agree] at h ⊢

theorem isObject_eq_of_agree {a b : Json} (h : agree eq a b = true) : a.isObject = b.isObject := by
  cases a <;> cases b <;> simp [agree] at h ⊢ <;> rfl

end Json

theorem Number.same_comm (m n : Number) : m.same n = n.same m := by
  cases m <;> cases n <;> simp only [Number.same] <;> exact BEq.comm

theorem Number.same_trans {l m n : Number} (h : l.same m = true) (h' : m.same n = true) :
    l.same n = true := by
  cases l <;> cases m <;> cases n <;> simp only [Number.same, beq_iff_eq, reduceCtorEq] at *
  · exact h.trans h'
  · exact h.trans h'

namespace Call

variable {a b c : Call}

theorem name_eq_of_same (h : a.same b = true) : a.name = b.name :=
  eq_of_beq (Bool.and_eq_true_iff.1 h).1

/-- **Which of two equal calls comes first makes no difference.** -/
theorem same_comm : a.same b = b.same a := by
  unfold same Json.same
  rw [Json.agree_comm Number.same_comm, BEq.comm]

/-- **Calls that equal a third one are equal.** -/
theorem same_trans (h : a.same b = true) (h' : b.same c = true) : a.same c = true := by
  obtain ⟨hn, ha⟩ := Bool.and_eq_true_iff.1 h
  obtain ⟨hn', ha'⟩ := Bool.and_eq_true_iff.1 h'
  refine Bool.and_eq_true_iff.2 ⟨?_, ?_⟩
  · exact beq_iff_eq.2 ((eq_of_beq hn).trans (eq_of_beq hn'))
  · exact Json.agree_trans (fun l m n => Number.same_trans (l := l) (m := m) (n := n)) _ _ _ ha ha'

end Call

end Conductor

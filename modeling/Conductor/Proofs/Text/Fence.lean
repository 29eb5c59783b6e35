import Conductor.Text.Fence

/-!
# Texts without fences

White space and fences are only taken from the ends of a text. A text whose first and last character
are neither, such as one that stands in brackets, is left as it is, and what is taken is only the
white space around it.

* `Text.trimChars_surrounded` : the white space around a text is taken away;
* `Text.stripFenceChars_surrounded` : **and nothing else, if no fence stands there.**
-/

namespace Conductor

namespace Text

variable {before cs body after : List Char}

theorem dropWhile_of_head {p : Char → Bool} (h : ∀ c ∈ cs.head?, p c = false) :
    cs.dropWhile p = cs := by
  cases cs with
  | nil => rfl
  | cons c cs => rw [List.dropWhile_cons, h c rfl, if_neg Bool.false_ne_true]

/-- Where no white space stands, none is taken away. -/
theorem trimStartChars_of_head (h : ∀ c ∈ cs.head?, isBlank c = false) :
    trimStartChars cs = cs :=
  dropWhile_of_head h

theorem trimEndChars_of_last (h : ∀ c ∈ cs.getLast?, isBlank c = false) :
    trimEndChars cs = cs := by
  rw [← List.head?_reverse] at h
  rw [trimEndChars, ← trimStartChars, trimStartChars_of_head h, List.reverse_reverse]

/-- White space in front of a text is taken away. -/
theorem trimStartChars_append (h : ∀ c ∈ before, isBlank c = true) :
    trimStartChars (before ++ cs) = trimStartChars cs :=
  List.dropWhile_append_of_pos h

theorem trimEndChars_append (h : ∀ c ∈ after, isBlank c = true) :
    trimEndChars (cs ++ after) = trimEndChars cs := by
  have h' : ∀ c ∈ after.reverse, isBlank c = true := fun c hc => h c (List.mem_reverse.1 hc)
  rw [trimEndChars, List.reverse_append, List.dropWhile_append_of_pos h', trimEndChars]

/-- **The white space around a text is taken away**, and what stands between it is left. -/
theorem trimChars_surrounded (hbefore : ∀ c ∈ before, isBlank c = true)
    (hafter : ∀ c ∈ after, isBlank c = true) (hhead : ∀ c ∈ cs.head?, isBlank c = false)
    (hlast : ∀ c ∈ cs.getLast?, isBlank c = false) :
    trimChars (before ++ cs ++ after) = cs := by
  rw [trimChars, List.append_assoc, trimStartChars_append hbefore]
  cases cs with
  | nil =>
    have hnil : trimStartChars (after ++ []) = [] := trimStartChars_append hafter
    rw [List.append_nil] at hnil
    rw [List.nil_append, hnil]
    rfl
  | cons c cs =>
    have hstart : trimStartChars (c :: cs ++ after) = c :: cs ++ after :=
      trimStartChars_of_head hhead
    rw [hstart, trimEndChars_append hafter, trimEndChars_of_last hlast]

/-- A fence starts with a backtick. -/
theorem afterOpening?_of_head (h : ∀ c ∈ cs.head?, c ≠ '`') : afterOpening? cs = none := by
  refine if_neg fun hfence => ?_
  cases cs with
  | nil => cases hfence
  | cons c cs =>
    rw [fence, List.isPrefixOf_cons_cons, Bool.and_eq_true, beq_iff_eq] at hfence
    exact h c rfl hfence.1.symm

/-- The last three backticks are the closing fence. -/
theorem beforeClosing?_fenced : beforeClosing? (body ++ fence) = some body := by
  have hlength : (body ++ fence).length - 3 = body.length := by
    rw [List.length_append]
    exact Nat.add_sub_cancel body.length 3
  rw [beforeClosing?, if_pos (List.isSuffixOf_iff_suffix.2 (List.suffix_append ..)), hlength,
    List.take_left]

/-- **Of a text that starts with no fence only the white space around it is taken away.** -/
theorem stripFenceChars_surrounded (hbefore : ∀ c ∈ before, isBlank c = true)
    (hafter : ∀ c ∈ after, isBlank c = true)
    (hhead : ∀ c ∈ cs.head?, isBlank c = false ∧ c ≠ '`')
    (hlast : ∀ c ∈ cs.getLast?, isBlank c = false) :
    stripFenceChars (before ++ cs ++ after) = cs := by
  rw [stripFenceChars, trimChars_surrounded hbefore hafter (fun c hc => (hhead c hc).1) hlast,
    afterOpening?_of_head fun c hc => (hhead c hc).2]
  rfl

end Text

end Conductor

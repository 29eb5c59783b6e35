import Conductor.Critique.Basic
import Conductor.Decision.Reply
import Conductor.Proofs.Text.Pattern

/-!
# Texts between fences

A model often puts its reply between fences of three backticks. The fences are transparent: whatever
the text holds, backticks and other fences included, exactly this text is found between them, less
the white space at its ends. So a reply between fences says what the reply says without them.

* `Text.Fencing` : how a text is put between fences;
* `Text.stripFenceChars_fenced` : **between the fences stands the text, whatever it holds;**
* `Text.Fencing.transparent` : **a reply between fences stands for the same decision and the same
  critique, and has the same faults.**
-/

namespace Conductor

namespace Text

variable {before info gap lineEnd body space after rest : List Char}

/-! ### The lines of the fences -/

theorem isInfoChar_of_isGap {c : Char} (h : isGap c = true) : isInfoChar c = false := by
  rw [isGap, Bool.or_eq_true, beq_iff_eq, beq_iff_eq] at h
  rcases h with rfl | rfl <;> decide

/-- Nothing but the name of the language, the gap and one line end is passed over. -/
theorem afterOpening?_fenced (hinfo : ∀ c ∈ info, isInfoChar c = true)
    (hgap : ∀ c ∈ gap, isGap c = true) (hline : lineEnd = ['\n'] ∨ lineEnd = ['\r', '\n']) :
    afterOpening? (fence ++ (info ++ (gap ++ (lineEnd ++ rest)))) = some rest := by
  have hhead : ∀ c ∈ (gap ++ (lineEnd ++ rest)).head?, isInfoChar c = false := by
    intro c hc
    cases gap with
    | nil => rcases hline with rfl | rfl <;> cases hc <;> decide
    | cons d gap =>
      obtain rfl : d = c := Option.some.inj hc
      exact isInfoChar_of_isGap (hgap d List.mem_cons_self)
  have hhead' : ∀ c ∈ (lineEnd ++ rest).head?, isGap c = false := by
    intro c hc
    rcases hline with rfl | rfl <;> cases hc <;> decide
  have hprefix : fence.isPrefixOf (fence ++ (info ++ (gap ++ (lineEnd ++ rest)))) = true :=
    List.isPrefixOf_iff_prefix.2 (List.prefix_append ..)
  have hdrop : (fence ++ (info ++ (gap ++ (lineEnd ++ rest)))).drop 3 =
      info ++ (gap ++ (lineEnd ++ rest)) := rfl
  rw [afterOpening?, if_pos hprefix, hdrop, List.dropWhile_append_of_pos hinfo,
    dropWhile_of_head hhead, List.dropWhile_append_of_pos hgap, dropWhile_of_head hhead']
  rcases hline with rfl | rfl <;> rfl

/-- **Between the fences stands the text, whatever it holds**: only the first and the last three
backticks count. -/
theorem stripFenceChars_fenced (hbefore : ∀ c ∈ before, isBlank c = true)
    (hinfo : ∀ c ∈ info, isInfoChar c = true) (hgap : ∀ c ∈ gap, isGap c = true)
    (hline : lineEnd = ['\n'] ∨ lineEnd = ['\r', '\n']) (hspace : ∀ c ∈ space, isBlank c = true)
    (hafter : ∀ c ∈ after, isBlank c = true) :
    stripFenceChars
        (before ++ (fence ++ (info ++ (gap ++ (lineEnd ++ (body ++ space ++ fence))))) ++ after) =
      trimChars body := by
  have htrimmed : trimChars
      (before ++ (fence ++ (info ++ (gap ++ (lineEnd ++ (body ++ space ++ fence))))) ++ after) =
        fence ++ (info ++ (gap ++ (lineEnd ++ (body ++ space ++ fence)))) := by
    refine trimChars_surrounded hbefore hafter ?_ ?_
    · intro c hc
      cases hc
      decide
    · intro c hc
      simp only [List.getLast?_append, fence, List.getLast?_cons_cons, List.getLast?_singleton,
        Option.some_or, Option.mem_some_iff] at hc
      subst hc
      decide
  rw [stripFenceChars, htrimmed, afterOpening?_fenced hinfo hgap hline, Option.bind_eq_bind,
    Option.bind_some, beforeClosing?_fenced]
  exact trimChars_append_blank hspace

/-! ### Replies between fences -/

/-- What stands around a text between fences: white space around the whole, behind the opening
fence the name of a language, a gap and a line end, and white space before the closing fence. -/
structure Fencing where
  before : String
  info : String
  gap : String
  lineEnd : String
  space : String
  after : String
  before_blank : isBlankText before = true
  info_word : info.toList.all isInfoChar = true
  gap_narrow : gap.toList.all isGap = true
  lineEnd_ends : lineEnd = "\n" ∨ lineEnd = "\r\n"
  space_blank : isBlankText space = true
  after_blank : isBlankText after = true

namespace Fencing

/-- The text between the fences. -/
def around (f : Fencing) (text : String) : String :=
  f.before ++ "```" ++ f.info ++ f.gap ++ f.lineEnd ++ text ++ f.space ++ "```" ++ f.after

theorem stripFence_around (f : Fencing) (text : String) :
    stripFence (f.around text) = trim text := by
  have hline : f.lineEnd.toList = ['\n'] ∨ f.lineEnd.toList = ['\r', '\n'] :=
    f.lineEnd_ends.imp (congrArg String.toList) (congrArg String.toList)
  have hfence : "```".toList = fence := rfl
  have hchars : (f.around text).toList = f.before.toList ++ (fence ++ (f.info.toList ++
      (f.gap.toList ++ (f.lineEnd.toList ++ (text.toList ++ f.space.toList ++ fence))))) ++
        f.after.toList := by
    simp only [around, String.toList_append, hfence, List.append_assoc]
  rw [stripFence, hchars, stripFenceChars_fenced (List.all_eq_true.1 f.before_blank)
    (List.all_eq_true.1 f.info_word) (List.all_eq_true.1 f.gap_narrow) hline
    (List.all_eq_true.1 f.space_blank) (List.all_eq_true.1 f.after_blank)]
  rfl

/-- **Fences are transparent.** What is found between fences is what the pattern of a fenced text
captures, trimmed, or the whole text where the pattern does not match. Whatever a text holds, it is
found between any fences, less the white space at its ends; and a reply that is not fenced itself
stands between fences for the same decision and the same critique, and has the same faults. -/
theorem transparent :
    (∀ s : String, (stripFence s).toList =
      ((captured? (trim s).toList).map trimChars).getD (trim s).toList) ∧
    ∀ (f : Fencing) (text : String),
      stripFence (f.around text) = trim text ∧
      (stripFence text = trim text →
        Decision.parse (f.around text) = Decision.parse text ∧
        Critique.ofReply (f.around text) = Critique.ofReply text) := by
  refine ⟨fun s => ?_, fun f text => ⟨f.stripFence_around text, fun hplain => ?_⟩⟩
  · have htrim : (trim s).toList = trimChars s.toList := String.toList_ofList
    rw [htrim, ← stripFenceChars_eq_captured, stripFence, String.toList_ofList]
  · have hsame : stripFence (f.around text) = stripFence text :=
      (f.stripFence_around text).trans hplain.symm
    unfold Decision.parse Critique.ofReply
    rw [hsame]
    exact ⟨rfl, rfl⟩

/-- Fences with white space wherever it may stand. -/
def wide : Fencing where
  before := "\n "
  info := "json-5"
  gap := " \t"
  lineEnd := "\r\n"
  space := "\n\n"
  after := " \n"
  before_blank := by decide
  info_word := by decide
  gap_narrow := by decide
  lineEnd_ends := .inr rfl
  space_blank := by decide
  after_blank := by decide

/-- A text that holds a fence and ends with backticks, and a reply. -/
theorem transparent_wide :
    stripFence (wide.around "\n```sh\nls\n``` and ``") = "```sh\nls\n``` and ``" ∧
    Decision.parse (wide.around "\n\x7b\"stop\": \x7b\"reason\": \"```\"\x7d\x7d") =
      Decision.parse "\n\x7b\"stop\": \x7b\"reason\": \"```\"\x7d\x7d" ∧
    Critique.ofReply (wide.around "ok ``` ok") = Critique.ofReply "ok ``` ok" := by
  obtain ⟨-, hwide⟩ := transparent
  refine ⟨?_, ?_, ?_⟩
  · rw [(hwide wide _).1]
    decide +kernel
  · exact ((hwide wide _).2 (by decide +kernel)).1
  · exact ((hwide wide _).2 (by decide +kernel)).2

end Fencing

end Text

end Conductor

import Conductor.Decision.ToolName
import Conductor.Proofs.Text.SmallLetters
import Mathlib.Logic.Function.Iterate

/-!
# Names of tools that were read before

A name is trimmed and written in small letters before it is looked up, and its spaces become
underscores only if it is no alias. What comes out is again trimmed and in small letters, so on a
second reading only the table of aliases can change it.

* `Text.Tidy` : the text is trimmed and in small letters;
* `tidy_canonicalToolName` : **what comes out is tidy**, and it has no spaces;
* `halfSpelled` : the spellings that become an alias only with their spaces underscored;
* `canonicalToolName_idem_iff` : **a name that is read twice keeps its spelling except in these two
  cases**, and after two readings no name changes any more.
-/

namespace Conductor

/-! ### Tidy texts -/

namespace Text

/-- The text is in small letters, and no white space stands at its ends. -/
structure Tidy (s : String) : Prop where
  trimmed : Trimmed s.toList
  small : ∀ c ∈ s.toList, IsSmall c

variable {s : String}

theorem tidy_lower_trim (s : String) : Tidy (lower (trim s)) := by
  have hletters : (lower (trim s)).toList = lowerChars (trimChars s.toList) := by
    rw [lower, trim, String.toList_ofList, String.toList_ofList]
  constructor
  · rw [hletters]
    exact (trimmed_trimChars s.toList).lowerChars
  · rw [hletters]
    exact fun _ => isSmall_of_mem_lowerChars

/-- **A tidy text is left as it is.** -/
theorem Tidy.lower_trim (h : Tidy s) : lower (trim s) = s := by
  rw [lower, trim, String.toList_ofList, h.trimmed.trimChars_eq, lowerChars_of_isSmall h.small,
    String.ofList_toList]

theorem Tidy.underscored (h : Tidy s) : Tidy (underscored s) := by
  constructor
  · rw [Conductor.underscored, String.toList_ofList]
    refine h.trimmed.map fun c hc => ?_
    split at hc
    · exact absurd hc (by decide)
    · exact hc
  · intro c hc
    rw [Conductor.underscored, String.toList_ofList] at hc
    obtain ⟨d, hd, rfl⟩ := List.mem_map.1 hc
    split
    · rfl
    · exact h.small d hd

end Text

open Text

/-! ### The table of aliases -/

/-- The spellings in the table. -/
def aliases : List String := toolAliases.map (·.1)

/-- Every alias stands for the same tool. -/
theorem lookup_toolAliases (s : String) :
    toolAliases.lookup s = if s ∈ aliases then some dateTimeTool else none := by
  split
  · rename_i h
    have hall : ∀ a ∈ aliases, toolAliases.lookup a = some dateTimeTool := by decide
    exact hall s h
  · rename_i h
    rw [List.lookup_eq_none_iff]
    rintro ⟨a, t⟩ ha
    exact bne_iff_ne.2 fun he => h (he ▸ List.mem_map_of_mem ha)

theorem canonicalToolName_eq (name : String) :
    canonicalToolName name = if lower (trim name) ∈ aliases then dateTimeTool
      else underscored (lower (trim name)) := by
  rw [canonicalToolName, lookup_toolAliases]
  split <;> rfl

theorem canonicalToolName_of_tidy {s : String} (h : Tidy s) :
    canonicalToolName s = if s ∈ aliases then dateTimeTool else underscored s := by
  rw [canonicalToolName_eq, h.lower_trim]

/-! ### What comes out -/

theorem tidy_dateTimeTool : Tidy dateTimeTool := by
  have hsame : lower (trim dateTimeTool) = dateTimeTool := by decide
  exact hsame ▸ tidy_lower_trim dateTimeTool

/-- **The registered spelling is tidy.** -/
theorem tidy_canonicalToolName (name : String) : Tidy (canonicalToolName name) := by
  rw [canonicalToolName_eq]
  split
  · exact tidy_dateTimeTool
  · exact (tidy_lower_trim name).underscored

theorem space_notMem_underscored (s : String) : ' ' ∉ (underscored s).toList := by
  rw [underscored, String.toList_ofList]
  intro h
  obtain ⟨c, -, hc⟩ := List.mem_map.1 h
  split at hc
  · exact absurd hc (by decide)
  · contradiction

theorem underscored_of_space_notMem {s : String} (h : ' ' ∉ s.toList) : underscored s = s := by
  have hsame : ∀ c ∈ s.toList, (if c = ' ' then '_' else c) = id c := by
    intro c hc
    refine if_neg fun he => ?_
    subst he
    exact h hc
  rw [underscored, List.map_congr_left hsame, List.map_id, String.ofList_toList]

theorem space_notMem_canonicalToolName (name : String) : ' ' ∉ (canonicalToolName name).toList := by
  rw [canonicalToolName_eq]
  split
  · decide
  · exact space_notMem_underscored _

/-- **Only the table of aliases changes a name that was read before.** -/
theorem canonicalToolName_twice (name : String) :
    canonicalToolName (canonicalToolName name) =
      if canonicalToolName name ∈ aliases then dateTimeTool else canonicalToolName name := by
  rw [canonicalToolName_of_tidy (tidy_canonicalToolName name),
    underscored_of_space_notMem (space_notMem_canonicalToolName name)]

/-! ### The names that come out as an alias -/

/-- The texts that become these characters with underscores for spaces. -/
def spacings : List Char → List (List Char)
  | [] => [[]]
  | c :: cs => (if c = '_' then ['_', ' '] else [c]).flatMap fun d => (spacings cs).map (d :: ·)

theorem mem_spacings {cs : List Char} :
    cs ∈ spacings (cs.map fun c => if c = ' ' then '_' else c) := by
  induction cs with
  | nil => exact List.mem_cons_self
  | cons c cs ih =>
    refine List.mem_flatMap.2 ⟨c, ?_, List.mem_map_of_mem ih⟩
    by_cases hspace : c = ' '
    · subst hspace
      decide
    · simp only [if_neg hspace]
      split
      · rename_i h
        exact h ▸ List.mem_cons_self
      · exact List.mem_cons_self

/-- The spellings that are no alias themselves, but are one with underscores for spaces. -/
def halfSpelled : List String := ["date_time tool", "date time_tool"]

/-- **A name comes out as an alias exactly if it is half spelled.** -/
theorem canonicalToolName_mem_aliases {name : String} :
    canonicalToolName name ∈ aliases ↔ lower (trim name) ∈ halfSpelled := by
  rw [canonicalToolName_eq]
  generalize lower (trim name) = s
  have hspelled : ∀ a ∈ aliases, ∀ cs ∈ spacings a.toList,
      String.ofList cs ∈ aliases ∨ String.ofList cs ∈ halfSpelled := by decide
  constructor
  · intro h
    split at h
    · exact absurd h (by decide)
    · rename_i hs
      have hcs : s.toList ∈ spacings (underscored s).toList := by
        rw [underscored, String.toList_ofList]
        exact mem_spacings
      have hcases := hspelled _ h _ hcs
      rw [String.ofList_toList] at hcases
      exact hcases.resolve_left hs
  · have hhalf : ∀ s ∈ halfSpelled, s ∉ aliases ∧ underscored s ∈ aliases := by decide
    intro h
    obtain ⟨hno, hyes⟩ := hhalf s h
    rwa [if_neg hno]

/-- What comes out as an alias is the spelling with underscores only. -/
theorem canonicalToolName_of_halfSpelled {name : String} (h : lower (trim name) ∈ halfSpelled) :
    canonicalToolName name = "date_time_tool" := by
  have hhalf : ∀ s ∈ halfSpelled,
      (if s ∈ aliases then dateTimeTool else underscored s) = "date_time_tool" := by decide
  rw [canonicalToolName_eq]
  exact hhalf _ h

/-- The tool that every alias stands for keeps its name. -/
theorem canonicalToolName_dateTimeTool : canonicalToolName dateTimeTool = dateTimeTool := by
  decide

/-- After two readings a name does not change any more. -/
theorem canonicalToolName_thrice (name : String) :
    canonicalToolName (canonicalToolName (canonicalToolName name)) =
      canonicalToolName (canonicalToolName name) := by
  have htwice := canonicalToolName_twice name
  split at htwice
  · rw [htwice, canonicalToolName_dateTimeTool]
  · rw [htwice, htwice]

/-- **A name keeps the spelling that it was given once, however often it is read, unless it is half
spelled.** Then it comes out as an alias of the tool for dates, and as this tool from the second
reading on. -/
theorem canonicalToolName_idem_iff (name : String) :
    (canonicalToolName (canonicalToolName name) = canonicalToolName name ↔
      lower (trim name) ∉ halfSpelled) ∧
    ((∃ tool, toolAliases.lookup (canonicalToolName name) = some tool ∧
      tool ≠ canonicalToolName name) ↔ lower (trim name) ∈ halfSpelled) ∧
    (lower (trim name) ∈ halfSpelled → canonicalToolName name = "date_time_tool" ∧
      canonicalToolName (canonicalToolName name) = dateTimeTool) ∧
    ∀ n, canonicalToolName^[n + 2] name = canonicalToolName (canonicalToolName name) := by
  have htwice := canonicalToolName_twice name
  have hsettled (n : Nat) :
      canonicalToolName^[n + 2] name = canonicalToolName (canonicalToolName name) := by
    rw [Function.iterate_succ_apply, Function.iterate_succ_apply]
    exact Function.iterate_fixed (canonicalToolName_thrice name) n
  by_cases h : lower (trim name) ∈ halfSpelled
  · have halias := canonicalToolName_mem_aliases.2 h
    have hname := canonicalToolName_of_halfSpelled h
    rw [if_pos halias] at htwice
    have hne : dateTimeTool ≠ canonicalToolName name := by
      rw [hname]
      decide
    refine ⟨iff_of_false ?_ (not_not_intro h), iff_of_true ⟨dateTimeTool, ?_, hne⟩ h,
      fun _ => ⟨hname, htwice⟩, hsettled⟩
    · rw [htwice]
      exact hne
    · rw [lookup_toolAliases, if_pos halias]
  · have halias := mt canonicalToolName_mem_aliases.1 h
    rw [if_neg halias] at htwice
    refine ⟨iff_of_true htwice h, iff_of_false ?_ h, fun h' => absurd h' h, hsettled⟩
    rintro ⟨tool, hlookup, -⟩
    rw [lookup_toolAliases, if_neg halias] at hlookup
    cases hlookup

/-- A name with one underscore and one space comes out as an alias, and differently when it is read
again. -/
theorem canonicalToolName_not_idem :
    ¬ ∀ name, canonicalToolName (canonicalToolName name) = canonicalToolName name := by
  intro h
  have honce : canonicalToolName "date_time tool" = "date_time_tool" := by decide
  have htwice : canonicalToolName "date_time_tool" = dateTimeTool := by decide
  have hsame := h "date_time tool"
  rw [honce, htwice] at hsame
  exact absurd hsame (by decide)

end Conductor

import Conductor.Json.Printer
import Conductor.Json.Reader

/-!
# Layouts of a JSON text

A text of a value is made of the words, numerals and strings of its parts, of brackets, commas and
colons, and of white space between them. `Written j cs` says that `cs` is such a text of `j`. What
is proved about reading is proved for all of them; that the two printers write such texts is all
that is needed of the printers.

* `Json.Written` : the characters are a text of the value, whatever its white space;
* `Json.written_compact`, `Json.written_pretty` : **both printers write a text of the value.**
-/

namespace Conductor

namespace Json

/-! ### White space -/

/-- White space only. -/
def Blank (w : List Char) : Prop := ∀ c ∈ w, isSpace c = true

theorem blank_nil : Blank [] := by simp [Blank]

theorem blank_newLine (level : Nat) : Blank (newLine level) := by
  intro c hc
  rcases List.mem_cons.1 hc with rfl | hc
  · rfl
  · rw [List.eq_of_mem_replicate hc]
    rfl

/-- What stands before an item or a member: white space, with a comma in it except before the
first one. -/
def Lead (first : Bool) (w : List Char) : Prop :=
  if first then Blank w else ∃ u v, w = u ++ ',' :: v ∧ Blank u ∧ Blank v

/-- The comma before an item or a member. -/
def comma (first : Bool) : List Char := if first then [] else [',']

theorem lead_comma {w : List Char} (first : Bool) (hw : Blank w) :
    Lead first (comma first ++ w) := by
  cases first
  · exact ⟨[], w, rfl, blank_nil, hw⟩
  · exact hw

/-! ### Texts of a value -/

mutual

/-- The characters are a text of the value. -/
def Written : Json → List Char → Prop
  | .null, cs => cs = "null".toList
  | .bool b, cs => cs = if b then "true".toList else "false".toList
  | .number n, cs => cs = n.render.toList
  | .string s, cs => cs = quoteChars s
  | .array xs, cs => ∃ ds, cs = '[' :: ds ∧ WrittenItems true xs ds
  | .object ms, cs => ∃ ds, cs = '{' :: ds ∧ WrittenMembers true ms ds

/-- The characters are a text of the items and of the bracket behind them. -/
def WrittenItems (first : Bool) : List Json → List Char → Prop
  | [], cs => ∃ w, cs = w ++ [']'] ∧ Blank w
  | x :: xs, cs => ∃ w vs ds, cs = w ++ (vs ++ ds) ∧ Lead first w ∧ Written x vs ∧
      WrittenItems false xs ds

/-- The characters are a text of the members and of the brace behind them. -/
def WrittenMembers (first : Bool) : List (String × Json) → List Char → Prop
  | [], cs => ∃ w, cs = w ++ ['}'] ∧ Blank w
  | (k, x) :: ms, cs => ∃ w u v vs ds, cs = w ++ (quoteChars k ++ (u ++ ':' :: (v ++ (vs ++ ds)))) ∧
      Lead first w ∧ Blank u ∧ Blank v ∧ Written x vs ∧ WrittenMembers false ms ds

end

/-! ### The compact layout -/

mutual

/-- **The text without white space is a text of the value.** -/
theorem written_compactChars : (j : Json) → Written j (compactChars j)
  | .null => rfl
  | .bool _ => rfl
  | .number _ => rfl
  | .string _ => rfl
  | .array [] => ⟨_, rfl, [], rfl, blank_nil⟩
  | .array (x :: xs) => ⟨_, rfl, writtenItems_compactItems true (x :: xs) (List.cons_ne_nil _ _)⟩
  | .object [] => ⟨_, rfl, [], rfl, blank_nil⟩
  | .object (m :: ms) =>
    ⟨_, rfl, writtenMembers_compactMembers true (m :: ms) (List.cons_ne_nil _ _)⟩

theorem writtenItems_compactItems (first : Bool) : (xs : List Json) → xs ≠ [] →
    WrittenItems first xs (comma first ++ (compactItems xs ++ [']']))
  | [], h => absurd rfl h
  | [x], _ => by
    refine ⟨comma first, compactChars x, [']'], rfl, ?_, written_compactChars x, [], rfl, blank_nil⟩
    simpa using lead_comma first blank_nil
  | x :: y :: ys, _ => by
    have hrest := writtenItems_compactItems false (y :: ys) (List.cons_ne_nil _ _)
    refine ⟨comma first, compactChars x, comma false ++ (compactItems (y :: ys) ++ [']']), ?_, ?_,
      written_compactChars x, hrest⟩
    · simp [compactItems, comma]
    · simpa using lead_comma first blank_nil

theorem writtenMembers_compactMembers (first : Bool) : (ms : List (String × Json)) → ms ≠ [] →
    WrittenMembers first ms (comma first ++ (compactMembers ms ++ ['}']))
  | [], h => absurd rfl h
  | [(k, x)], _ => by
    refine ⟨comma first, [], [], compactChars x, ['}'], ?_, ?_, blank_nil, blank_nil,
      written_compactChars x, [], rfl, blank_nil⟩
    · simp [compactMembers]
    · simpa using lead_comma first blank_nil
  | (k, x) :: m :: ms, _ => by
    have hrest := writtenMembers_compactMembers false (m :: ms) (List.cons_ne_nil _ _)
    refine ⟨comma first, [], [], compactChars x, comma false ++ (compactMembers (m :: ms) ++ ['}']),
      ?_, ?_, blank_nil, blank_nil, written_compactChars x, hrest⟩
    · simp [compactMembers, comma]
    · simpa using lead_comma first blank_nil

end

/-! ### The layout in lines -/

theorem blank_space : Blank [' '] := by simp [Blank, isSpace]

mutual

/-- **The text in lines is a text of the value.** -/
theorem written_prettyChars (level : Nat) : (j : Json) → Written j (prettyChars level j)
  | .null => rfl
  | .bool _ => rfl
  | .number _ => rfl
  | .string _ => rfl
  | .array [] => ⟨_, rfl, [], rfl, blank_nil⟩
  | .array (x :: xs) => by
    refine ⟨_, rfl, ?_⟩
    simpa [comma] using
      writtenItems_prettyItems (level + 1) level true (x :: xs) (List.cons_ne_nil _ _)
  | .object [] => ⟨_, rfl, [], rfl, blank_nil⟩
  | .object (m :: ms) => by
    refine ⟨_, rfl, ?_⟩
    simpa [comma] using writtenMembers_prettyMembers (level + 1) level true (m :: ms)
      (List.cons_ne_nil _ _)

theorem writtenItems_prettyItems (level outer : Nat) (first : Bool) : (xs : List Json) → xs ≠ [] →
    WrittenItems first xs (comma first ++ (prettyItems level xs ++ (newLine outer ++ [']'])))
  | [], h => absurd rfl h
  | [x], _ => by
    refine ⟨comma first ++ newLine level, prettyChars level x, newLine outer ++ [']'], ?_,
      lead_comma first (blank_newLine level), written_prettyChars level x, newLine outer, rfl,
      blank_newLine outer⟩
    simp [prettyItems]
  | x :: y :: ys, _ => by
    have hrest := writtenItems_prettyItems level outer false (y :: ys) (List.cons_ne_nil _ _)
    refine ⟨comma first ++ newLine level, prettyChars level x, _, ?_,
      lead_comma first (blank_newLine level), written_prettyChars level x, hrest⟩
    simp [prettyItems, comma]

theorem writtenMembers_prettyMembers (level outer : Nat) (first : Bool) :
    (ms : List (String × Json)) → ms ≠ [] →
    WrittenMembers first ms (comma first ++ (prettyMembers level ms ++ (newLine outer ++ ['}'])))
  | [], h => absurd rfl h
  | [(k, x)], _ => by
    refine ⟨comma first ++ newLine level, [], [' '], prettyChars level x,
      newLine outer ++ ['}'], ?_,
      lead_comma first (blank_newLine level), blank_nil, blank_space, written_prettyChars level x,
      newLine outer, rfl, blank_newLine outer⟩
    simp [prettyMembers]
  | (k, x) :: m :: ms, _ => by
    have hrest := writtenMembers_prettyMembers level outer false (m :: ms) (List.cons_ne_nil _ _)
    refine ⟨comma first ++ newLine level, [], [' '], prettyChars level x, _, ?_,
      lead_comma first (blank_newLine level), blank_nil, blank_space, written_prettyChars level x,
      hrest⟩
    simp [prettyMembers, comma]

end

/-! ### Whole texts -/

/-- What is printed of a value is a text of it. -/
theorem written_compact (j : Json) : Written j j.compact.toList := by
  rw [compact, String.toList_ofList]
  exact written_compactChars j

theorem written_pretty (j : Json) : Written j j.pretty.toList := by
  rw [pretty, String.toList_ofList]
  exact written_prettyChars 0 j

end Json

end Conductor

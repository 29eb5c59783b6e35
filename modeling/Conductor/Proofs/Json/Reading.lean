import Conductor.Proofs.Json.Layout
import Conductor.Proofs.Json.Numeral
import Conductor.Proofs.Json.Quoted

/-!
# Reading back what was written

The reader takes any text of a value for that value, whatever its white space, if every number in
it is read back from its numeral (`Json.Exact`) and no more than 127 brackets are open at once. A
text that opens more has a fault. The proofs follow the value: a step lemma for each place at which
the reader decides what comes next, then one induction for what is read and one for what is not.

* `Json.readItems_item`, `Json.readMembers_member` : what the reader does at an item or a member;
* `Json.readValue_written` : **a text of a value is read as that value;**
* `Json.Document.Breaks` : a document is that of a value up to a fault, which no value has;
* `Json.readValue_nested` : **a text of a value is read up to a fault when it opens more brackets
  than may be opened;**
* `Json.Document.read_written`, `Json.Document.read_nested` : the same of whole texts.
-/

namespace Conductor

namespace Json

open Decimal (isDigit)

variable {cs w rest t : List Char} {c : Char} {first : Bool} {m : Mark} {fuel depth : Nat}

/-! ### White space -/

theorem skipSpace_blank (hw : Blank w) (m : Mark) (cs : List Char) :
    skipSpace m (w ++ cs) = skipSpace (m.pastAll w) cs := by
  induction w generalizing m with
  | nil => rfl
  | cons c w ih =>
    rw [List.cons_append, skipSpace, if_pos (hw c (List.mem_cons_self ..)),
      ih fun d hd => hw d (List.mem_cons_of_mem _ hd)]
    rfl

/-- Behind white space stands a character that is none. -/
theorem skipSpace_blank_cons (hw : Blank w) (hc : isSpace c = false) (m : Mark) :
    skipSpace m (w ++ c :: t) = ⟨c :: t, m.pastAll w⟩ := by
  rw [skipSpace_blank hw, skipSpace_of_head fun x hx => by cases hx; exact hc]

/-- White space in front of a value is passed over. -/
theorem readValue_blank (hw : Blank w) (hfuel : 0 < fuel) (m : Mark) (cs : List Char) :
    readValue fuel depth ⟨w ++ cs, m⟩ = readValue fuel depth ⟨cs, m.pastAll w⟩ := by
  have hskip : Cursor.skip ⟨w ++ cs, m⟩ = Cursor.skip ⟨cs, m.pastAll w⟩ := skipSpace_blank hw m cs
  cases fuel with
  | zero => cases hfuel
  | succ fuel => rw [readValue, readValue, hskip]

/-! ### Items -/

/-- Reads an item and those behind it. -/
def readItem (fuel depth : Nat) (c : Cursor) : Items × Except Misreading Cursor :=
  match readValue fuel depth c with
  | (d, .error e) => (.cons d none (.cut e), .error e)
  | (d, .ok after) =>
    let (others, last) := readItems fuel depth false after
    (.cons d (after.settle ']') others, last)

theorem readItem_ok {c after : Cursor} {d : Document}
    (h : readValue fuel depth c = (d, .ok after)) :
    readItem fuel depth c = (.cons d (after.settle ']') (readItems fuel depth false after).1,
      (readItems fuel depth false after).2) := by
  rw [readItem, h]

/-- Whatever is read of an item comes first. -/
theorem readItem_item {c : Cursor} {d : Document} {r : Except Misreading Cursor}
    (h : readValue fuel depth c = (d, r)) :
    ∃ settled others, (readItem fuel depth c).1 = .cons d settled others := by
  rw [readItem, h]
  cases r with
  | error e => exact ⟨_, _, rfl⟩
  | ok after => exact ⟨_, _, rfl⟩

theorem readItems_close (hw : Blank w) (m : Mark) :
    readItems (fuel + 1) depth first ⟨w ++ ']' :: rest, m⟩ =
      (.close (some ((m.pastAll w).along 1)), .ok ⟨rest, (m.pastAll w).along 1⟩) := by
  have hskip : Cursor.skip ⟨w ++ ']' :: rest, m⟩ = ⟨']' :: rest, m.pastAll w⟩ :=
    skipSpace_blank_cons hw rfl m
  rw [readItems]
  simp only [hskip, if_true]

variable (fuel depth) in
theorem readItems_item (hlead : Lead first w) (hspace : isSpace c = false) (hclose : c ≠ ']')
    (m : Mark) :
    ∃ m', readItems (fuel + 1) depth first ⟨w ++ c :: t, m⟩ = readItem fuel depth ⟨c :: t, m'⟩ := by
  cases first with
  | true =>
    have hskip : Cursor.skip ⟨w ++ c :: t, m⟩ = ⟨c :: t, m.pastAll w⟩ :=
      skipSpace_blank_cons hlead hspace m
    refine ⟨m.pastAll w, ?_⟩
    rw [readItems]
    simp only [hskip, if_neg hclose, if_true]
    rfl
  | false =>
    obtain ⟨u, v, rfl, hu, hv⟩ := hlead
    have hskip :
        Cursor.skip ⟨u ++ ',' :: v ++ c :: t, m⟩ = ⟨',' :: (v ++ c :: t), m.pastAll u⟩ := by
      rw [List.append_assoc]
      exact skipSpace_blank_cons hu rfl m
    refine ⟨((m.pastAll u).along 1).pastAll v, ?_⟩
    rw [readItems]
    simp only [hskip, skipSpace_blank_cons hv hspace, if_neg hclose, if_true]
    rfl

/-! ### Members -/

/-- Reads the value of a key behind its colon, and the members behind it. -/
def readMember (fuel depth : Nat) (key : String) (afterKey : Mark) (c : Cursor) :
    Members × Except Misreading Cursor :=
  let (d, reached) := readValue fuel depth c
  let behind : Except Misreading Cursor := match reached with
    | .ok after => .ok after
    | .error _ => passValue fuel c
  match behind with
  | .error e => (.cons key (some afterKey) d none (.cut e), .error e)
  | .ok after =>
    let (others, last) := readMembers fuel depth false after
    (.cons key (some afterKey) d (after.settle '\x7d') others, last)

theorem readMember_ok {key : String} {afterKey : Mark} {c after : Cursor} {d : Document}
    (h : readValue fuel depth c = (d, .ok after)) :
    readMember fuel depth key afterKey c =
      (.cons key (some afterKey) d (after.settle '\x7d') (readMembers fuel depth false after).1,
        (readMembers fuel depth false after).2) := by
  rw [readMember, h]

/-- **A value with a fault is passed over**, if that can be done, and the members behind it are
read. -/
theorem readMember_passed {key : String} {afterKey : Mark} {c after : Cursor} {d : Document}
    {e : Misreading} (h : readValue fuel depth c = (d, .error e))
    (hpass : passValue fuel c = .ok after) :
    readMember fuel depth key afterKey c =
      (.cons key (some afterKey) d (after.settle '\x7d') (readMembers fuel depth false after).1,
        (readMembers fuel depth false after).2) := by
  rw [readMember, h]
  simp only [hpass]

/-- Whatever is read of a value stands under its key. -/
theorem readMember_value {key : String} {afterKey : Mark} {c : Cursor} {d : Document}
    {r : Except Misreading Cursor} (h : readValue fuel depth c = (d, r)) :
    ∃ settled others,
      (readMember fuel depth key afterKey c).1 = .cons key (some afterKey) d settled others := by
  rw [readMember, h]
  dsimp only
  split
  · exact ⟨_, _, rfl⟩
  · exact ⟨_, _, rfl⟩

theorem readMembers_close (hw : Blank w) (m : Mark) :
    readMembers (fuel + 1) depth first ⟨w ++ '}' :: rest, m⟩ =
      (.close (some ((m.pastAll w).along 1)), .ok ⟨rest, (m.pastAll w).along 1⟩) := by
  have hskip : Cursor.skip ⟨w ++ '}' :: rest, m⟩ = ⟨'}' :: rest, m.pastAll w⟩ :=
    skipSpace_blank_cons hw rfl m
  rw [readMembers]
  simp only [hskip, if_true]

variable (fuel depth) in
theorem readMembers_member {u : List Char} (hlead : Lead first w) (hu : Blank u) (key : String)
    (m : Mark) :
    ∃ m', readMembers (fuel + 1) depth first ⟨w ++ (quoteChars key ++ (u ++ ':' :: t)), m⟩ =
      readMember fuel depth key m' ⟨t, m'.along 1⟩ := by
  have hquote : quoteChars key = '"' :: (quoteChars key).tail := rfl
  cases first with
  | true =>
    have hskip : Cursor.skip ⟨w ++ (quoteChars key ++ (u ++ ':' :: t)), m⟩ =
        ⟨'"' :: ((quoteChars key).tail ++ (u ++ ':' :: t)), m.pastAll w⟩ :=
      skipSpace_blank_cons hlead rfl m
    obtain ⟨m₁, hkey⟩ := readStringChars_quoteChars key (u ++ ':' :: t) ((m.pastAll w).along 1)
    have hcolon : Cursor.skip ⟨u ++ ':' :: t, m₁⟩ = ⟨':' :: t, m₁.pastAll u⟩ :=
      skipSpace_blank_cons hu rfl m₁
    refine ⟨m₁.pastAll u, ?_⟩
    rw [readMembers]
    simp only [hskip, hkey, hcolon, if_true]
    rfl
  | false =>
    obtain ⟨v, x, rfl, hv, hx⟩ := hlead
    have hskip : Cursor.skip ⟨v ++ ',' :: x ++ (quoteChars key ++ (u ++ ':' :: t)), m⟩ =
        ⟨',' :: (x ++ (quoteChars key ++ (u ++ ':' :: t))), m.pastAll v⟩ := by
      rw [List.append_assoc]
      exact skipSpace_blank_cons hv rfl m
    have hlead : skipSpace ((m.pastAll v).along 1) (x ++ (quoteChars key ++ (u ++ ':' :: t))) =
        ⟨'"' :: ((quoteChars key).tail ++ (u ++ ':' :: t)), ((m.pastAll v).along 1).pastAll x⟩ :=
      skipSpace_blank_cons hx rfl _
    obtain ⟨m₁, hkey⟩ := readStringChars_quoteChars key (u ++ ':' :: t)
      ((((m.pastAll v).along 1).pastAll x).along 1)
    have hcolon : Cursor.skip ⟨u ++ ':' :: t, m₁⟩ = ⟨':' :: t, m₁.pastAll u⟩ :=
      skipSpace_blank_cons hu rfl m₁
    refine ⟨m₁.pastAll u, ?_⟩
    rw [readMembers]
    simp only [hskip, hlead, hkey, hcolon, if_true]
    rfl

/-! ### Words and brackets -/

theorem readIdent_append (ws rest : List Char) (m : Mark) :
    ∃ m', readIdent m ws (ws ++ rest) = .ok ⟨rest, m'⟩ := by
  induction ws generalizing m with
  | nil => exact ⟨m, rfl⟩
  | cons w ws ih =>
    obtain ⟨m', h⟩ := ih (m.along 1)
    exact ⟨m', by rw [List.cons_append, readIdent, if_pos rfl, h]⟩

theorem readValue_array (hdepth : 1 < depth) (cs : List Char) (m : Mark) :
    readValue (fuel + 1) depth ⟨'[' :: cs, m⟩ =
      (.list (some m) (readItems fuel (depth - 1) true ⟨cs, m.along 1⟩).1,
        (readItems fuel (depth - 1) true ⟨cs, m.along 1⟩).2) := by
  rw [readValue]
  simp [Cursor.skip, skipSpace, isSpace, isDigit, Nat.not_le.2 hdepth]

theorem readValue_object (hdepth : 1 < depth) (cs : List Char) (m : Mark) :
    readValue (fuel + 1) depth ⟨'{' :: cs, m⟩ =
      (.object (some m) (readMembers fuel (depth - 1) true ⟨cs, m.along 1⟩).1,
        (readMembers fuel (depth - 1) true ⟨cs, m.along 1⟩).2) := by
  rw [readValue]
  simp [Cursor.skip, skipSpace, isSpace, isDigit, Nat.not_le.2 hdepth]

/-- No bracket is opened when no bracket is left. -/
theorem readValue_tooDeep (hdepth : depth ≤ 1) (hc : c = '[' ∨ c = '{') (cs : List Char)
    (m : Mark) :
    readValue (fuel + 1) depth ⟨c :: cs, m⟩ =
      (.broken ⟨.tooDeep, m.along 1⟩, .error ⟨.tooDeep, m.along 1⟩) := by
  rw [readValue]
  rcases hc with rfl | rfl <;> simp [Cursor.skip, skipSpace, isSpace, isDigit, hdepth]

/-! ### What a text starts with -/

mutual

/-- Every number in the value is read back from its numeral. -/
def Exact : Json → Prop
  | .number n => n.ReadsBack
  | .array xs => ExactItems xs
  | .object ms => ExactMembers ms
  | _ => True

/-- `Exact` of every item. -/
def ExactItems : List Json → Prop
  | [] => True
  | x :: xs => Exact x ∧ ExactItems xs

/-- `Exact` of every member. -/
def ExactMembers : List (String × Json) → Prop
  | [] => True
  | (_, x) :: ms => Exact x ∧ ExactMembers ms

end

/-- A text of a value starts neither with white space nor with a closing bracket. -/
theorem Written.head {j : Json} (hj : j.Exact) (h : Written j cs) :
    ∃ c t, cs = c :: t ∧ isSpace c = false ∧ c ≠ ']' := by
  cases j with
  | null => exact ⟨_, _, h, rfl, by decide⟩
  | bool b => cases b <;> exact ⟨_, _, h, rfl, by decide⟩
  | number n =>
    obtain ⟨c, t, -, heq, -, -⟩ := parse_numeral (numeralChars_render n) hj
    have hc : isNumeralChar c = true := numeralChars_render n c (heq ▸ List.mem_cons_self ..)
    refine ⟨c, t, h.trans heq, isSpace_of_isNumeralChar hc, ?_⟩
    rintro rfl
    cases hc
  | string s => exact ⟨_, _, h, rfl, by decide⟩
  | array xs =>
    obtain ⟨ds, rfl, -⟩ := h
    exact ⟨_, _, rfl, rfl, by decide⟩
  | object ms =>
    obtain ⟨ds, rfl, -⟩ := h
    exact ⟨_, _, rfl, rfl, by decide⟩

theorem Written.length_pos {j : Json} (hj : j.Exact) (h : Written j cs) : 0 < cs.length := by
  obtain ⟨c, t, rfl, -⟩ := h.head hj
  exact Nat.succ_pos _

theorem WrittenItems.length_pos {xs : List Json} (h : WrittenItems first xs cs) :
    0 < cs.length := by
  induction xs generalizing first cs with
  | nil =>
    obtain ⟨w, rfl, -⟩ := h
    simp
  | cons x xs ih =>
    obtain ⟨w, vs, ds, rfl, -, -, hds⟩ := h
    have hpos := ih hds
    simp only [List.length_append]
    omega

theorem WrittenMembers.length_pos {ms : List (String × Json)} (h : WrittenMembers first ms cs) :
    0 < cs.length := by
  cases ms with
  | nil =>
    obtain ⟨w, rfl, -⟩ := h
    simp
  | cons m ms =>
    obtain ⟨w, u, v, vs, ds, rfl, -⟩ := h
    simp only [quoteChars, List.length_append, List.length_cons]
    omega

theorem endsNumeral_blank (hw : Blank w) (h : EndsNumeral cs) : EndsNumeral (w ++ cs) := by
  cases w with
  | nil => exact h
  | cons c w =>
    intro x hx
    obtain rfl : c = x := Option.some.inj hx
    have hspace : isSpace c = true := hw c (List.mem_cons_self ..)
    have hcases : c = ' ' ∨ c = '\n' ∨ c = '\t' ∨ c = '\r' := by
      simpa [isSpace, or_assoc] using hspace
    rcases hcases with rfl | rfl | rfl | rfl <;> decide

theorem endsNumeral_nil : EndsNumeral [] := fun _ h => nomatch h

theorem endsNumeral_cons (hc : c = ',' ∨ c = ']' ∨ c = '}') : EndsNumeral (c :: t) := by
  intro x hx
  obtain rfl : c = x := Option.some.inj hx
  rcases hc with rfl | rfl | rfl <;> decide

theorem Lead.endsNumeral (h : Lead false w) : EndsNumeral (w ++ cs) := by
  obtain ⟨u, v, rfl, hu, -⟩ := h
  rw [List.append_assoc]
  exact endsNumeral_blank hu (endsNumeral_cons (.inl rfl))

theorem WrittenItems.endsNumeral {xs : List Json} (h : WrittenItems false xs cs) :
    EndsNumeral (cs ++ rest) := by
  cases xs with
  | nil =>
    obtain ⟨w, rfl, hw⟩ := h
    rw [List.append_assoc]
    exact endsNumeral_blank hw (endsNumeral_cons (.inr (.inl rfl)))
  | cons x xs =>
    obtain ⟨w, vs, ds, rfl, hlead, -⟩ := h
    rw [List.append_assoc]
    exact hlead.endsNumeral

theorem WrittenMembers.endsNumeral {ms : List (String × Json)} (h : WrittenMembers false ms cs) :
    EndsNumeral (cs ++ rest) := by
  cases ms with
  | nil =>
    obtain ⟨w, rfl, hw⟩ := h
    rw [List.append_assoc]
    exact endsNumeral_blank hw (endsNumeral_cons (.inr (.inr rfl)))
  | cons m ms =>
    obtain ⟨w, u, v, vs, ds, rfl, hlead, -⟩ := h
    rw [List.append_assoc]
    exact hlead.endsNumeral

/-! ### Texts that are read -/

/-- The document, without its places, is that of the value. -/
def Document.Holds (d : Document) (j : Json) : Prop := d.unmarked = .ofJson j

/-- The items, without their places, are those of the values. -/
def Items.Hold (d : Items) (xs : List Json) : Prop := d.unmarked = .ofJson xs

/-- The members, without their places, are those of the object. -/
def Members.Hold (d : Members) (ms : List (String × Json)) : Prop := d.unmarked = .ofJson ms

theorem Items.Hold.cons {d : Document} {ds : Items} {x : Json} {xs : List Json} (hx : d.Holds x)
    (hxs : ds.Hold xs) (settled : Option Mark) : (Items.cons d settled ds).Hold (x :: xs) := by
  rw [Items.Hold, Items.unmarked, hx, hxs]
  rfl

theorem Members.Hold.cons {d : Document} {ds : Members} {x : Json} {ms : List (String × Json)}
    (hx : d.Holds x) (hms : ds.Hold ms) (k : String) (afterKey settled : Option Mark) :
    (Members.cons k afterKey d settled ds).Hold ((k, x) :: ms) := by
  rw [Members.Hold, Members.unmarked, hx, hms]
  rfl

/-- A word is read when its letters are there. -/
theorem wordOf_readIdent (v : Scalar) (ws rest : List Char) (start m : Mark) :
    ∃ d m', wordOf start v (readIdent m ws (ws ++ rest)) = (d, .ok ⟨rest, m'⟩) ∧
      d.Holds v.toJson := by
  obtain ⟨m', h⟩ := readIdent_append ws rest m
  refine ⟨.scalar v (some ⟨start, m'⟩), m', by rw [h]; rfl, ?_⟩
  cases v <;> rfl

theorem readValue_null (rest : List Char) (m : Mark) :
    ∃ d m', readValue (fuel + 1) depth ⟨"null".toList ++ rest, m⟩ = (d, .ok ⟨rest, m'⟩) ∧
      d.Holds .null := by
  have hstep : readValue (fuel + 1) depth ⟨"null".toList ++ rest, m⟩ =
      wordOf m .null (readIdent (m.along 1) ['u', 'l', 'l'] (['u', 'l', 'l'] ++ rest)) := by
    rw [readValue]
    simp [Cursor.skip, skipSpace, isSpace]
  rw [hstep]
  exact wordOf_readIdent .null _ rest m _

theorem readValue_bool (b : Bool) (rest : List Char) (m : Mark) :
    ∃ d m', readValue (fuel + 1) depth ⟨(if b then "true".toList else "false".toList) ++ rest, m⟩ =
        (d, .ok ⟨rest, m'⟩) ∧
      d.Holds (.bool b) := by
  cases b with
  | false =>
    have hstep : readValue (fuel + 1) depth ⟨"false".toList ++ rest, m⟩ =
        wordOf m (.bool false)
          (readIdent (m.along 1) ['a', 'l', 's', 'e'] (['a', 'l', 's', 'e'] ++ rest)) := by
      rw [readValue]
      simp [Cursor.skip, skipSpace, isSpace]
    rw [if_neg Bool.false_ne_true, hstep]
    exact wordOf_readIdent (.bool false) _ rest m _
  | true =>
    have hstep : readValue (fuel + 1) depth ⟨"true".toList ++ rest, m⟩ =
        wordOf m (.bool true)
          (readIdent (m.along 1) ['r', 'u', 'e'] (['r', 'u', 'e'] ++ rest)) := by
      rw [readValue]
      simp [Cursor.skip, skipSpace, isSpace]
    rw [if_pos rfl, hstep]
    exact wordOf_readIdent (.bool true) _ rest m _

theorem readValue_string (s : String) (rest : List Char) (m : Mark) :
    ∃ d m', readValue (fuel + 1) depth ⟨quoteChars s ++ rest, m⟩ = (d, .ok ⟨rest, m'⟩) ∧
      d.Holds (.string s) := by
  obtain ⟨m', h⟩ := readStringChars_quoteChars s rest (m.along 1)
  have hstep : readValue (fuel + 1) depth ⟨quoteChars s ++ rest, m⟩ =
      scalarOf m .string (readStringChars (m.along 1) [] ((quoteChars s).tail ++ rest)) := by
    rw [readValue]
    simp [quoteChars, Cursor.skip, skipSpace, isSpace, isDigit]
  exact ⟨.scalar (.string s) (some ⟨m, m'⟩), m', by rw [hstep, h]; rfl, rfl⟩

-- The induction is on the value. Every step that spends fuel passes a character, so the length of
-- the text is fuel enough.
mutual

/-- **A text of a value is read as that value**, as long as its brackets may be opened. -/
theorem readValue_written : (j : Json) → {cs : List Char} → (rest : List Char) →
    (fuel depth : Nat) → j.Exact → Written j cs → EndsNumeral rest → cs.length ≤ fuel →
    j.depth < depth → (m : Mark) →
    ∃ d m', readValue fuel depth ⟨cs ++ rest, m⟩ = (d, .ok ⟨rest, m'⟩) ∧ d.Holds j
  | .null, _, rest, _ + 1, _, _, rfl, _, _, _, m => readValue_null rest m
  | .bool b, _, rest, _ + 1, _, _, rfl, _, _, _, m => readValue_bool b rest m
  | .number n, _, rest, fuel + 1, depth, hj, rfl, hrest, _, _, m => by
    obtain ⟨m', h⟩ := readValue_number hj hrest fuel depth m
    exact ⟨_, m', h, rfl⟩
  | .string s, _, rest, _ + 1, _, _, rfl, _, _, _, m => readValue_string s rest m
  | .array xs, _, rest, fuel + 1, depth, hj, ⟨ds, rfl, hds⟩, _, hfuel, hdepth, m => by
    rw [Json.depth] at hdepth
    obtain ⟨items, m', h, hitems⟩ := readItems_written true xs rest fuel (depth - 1) hj hds
      (Nat.le_of_succ_le_succ hfuel) (by omega) (m.along 1)
    refine ⟨.list (some m) items, m', ?_, congrArg (Document.list none) hitems⟩
    rw [List.cons_append, readValue_array (by omega), h]
  | .object ms, _, rest, fuel + 1, depth, hj, ⟨ds, rfl, hds⟩, _, hfuel, hdepth, m => by
    rw [Json.depth] at hdepth
    obtain ⟨members, m', h, hmembers⟩ := readMembers_written true ms rest fuel (depth - 1)
      hj hds (Nat.le_of_succ_le_succ hfuel) (by omega) (m.along 1)
    refine ⟨.object (some m) members, m', ?_, congrArg (Document.object none) hmembers⟩
    rw [List.cons_append, readValue_object (by omega), h]
  | _, _, _, 0, _, hj, h, _, hfuel, _, _ => absurd hfuel (Nat.not_le.2 (h.length_pos hj))

theorem readItems_written (first : Bool) : (xs : List Json) → {cs : List Char} →
    (rest : List Char) → (fuel depth : Nat) → ExactItems xs → WrittenItems first xs cs →
    cs.length ≤ fuel → depthItems xs < depth → (m : Mark) →
    ∃ d m', readItems fuel depth first ⟨cs ++ rest, m⟩ = (d, .ok ⟨rest, m'⟩) ∧ d.Hold xs
  | xs, cs, rest, 0, _, _, h, hfuel, _, _ =>
    absurd hfuel (Nat.not_le.2 h.length_pos)
  | [], _, rest, fuel + 1, _, _, ⟨w, rfl, hw⟩, _, _, m => by
    rw [List.append_assoc]
    exact ⟨_, _, readItems_close hw m, rfl⟩
  | x :: xs, _, rest, fuel + 1, depth, ⟨hx, hxs⟩, ⟨w, vs, ds, rfl, hlead, hvs, hds⟩, hfuel, hdepth,
      m => by
    obtain ⟨c, t, hct, hspace, hclose⟩ := hvs.head hx
    have hpos := hds.length_pos
    have hvpos : 0 < vs.length := hvs.length_pos hx
    simp only [List.length_append] at hfuel
    rw [depthItems] at hdepth
    obtain ⟨m₁, hitem⟩ := readItems_item fuel depth (t := t ++ (ds ++ rest)) hlead hspace hclose m
    obtain ⟨d, m₂, hd, hdx⟩ := readValue_written x (ds ++ rest) fuel depth hx hvs
      hds.endsNumeral (by omega) (by omega) m₁
    obtain ⟨items, m', hitems, hrest⟩ := readItems_written false xs rest fuel depth hxs hds
      (by omega) (by omega) m₂
    -- the item is seen once as a text of its own and once by its first character
    have htext : w ++ (vs ++ ds) ++ rest = w ++ c :: (t ++ (ds ++ rest)) := by simp [hct]
    rw [hct, List.cons_append] at hd
    refine ⟨.cons d (Cursor.settle ⟨ds ++ rest, m₂⟩ ']') items, m', ?_, Items.Hold.cons hdx hrest _⟩
    rw [htext, hitem, readItem_ok hd, hitems]

theorem readMembers_written (first : Bool) : (ms : List (String × Json)) → {cs : List Char} →
    (rest : List Char) → (fuel depth : Nat) → ExactMembers ms → WrittenMembers first ms cs →
    cs.length ≤ fuel → depthMembers ms < depth → (m : Mark) →
    ∃ d m', readMembers fuel depth first ⟨cs ++ rest, m⟩ = (d, .ok ⟨rest, m'⟩) ∧ d.Hold ms
  | ms, cs, rest, 0, _, _, h, hfuel, _, _ =>
    absurd hfuel (Nat.not_le.2 h.length_pos)
  | [], _, rest, fuel + 1, _, _, ⟨w, rfl, hw⟩, _, _, m => by
    rw [List.append_assoc]
    exact ⟨_, _, readMembers_close hw m, rfl⟩
  | (k, x) :: ms, _, rest, fuel + 1, depth, ⟨hx, hms⟩,
      ⟨w, u, v, vs, ds, rfl, hlead, hu, hv, hvs, hds⟩, hfuel, hdepth, m => by
    have hpos := hds.length_pos
    simp only [List.length_append, List.length_cons] at hfuel
    rw [depthMembers] at hdepth
    obtain ⟨m₁, hmember⟩ := readMembers_member fuel depth (t := v ++ (vs ++ (ds ++ rest)))
      hlead hu k m
    obtain ⟨d, m₂, hd, hdx⟩ := readValue_written x (ds ++ rest) fuel depth hx hvs
      hds.endsNumeral (by omega) (by omega) ((m₁.along 1).pastAll v)
    obtain ⟨members, m', hmembers, hrest⟩ := readMembers_written false ms rest fuel depth
      hms hds (by omega) (by omega) m₂
    have htext : w ++ (quoteChars k ++ (u ++ ':' :: (v ++ (vs ++ ds)))) ++ rest =
        w ++ (quoteChars k ++ (u ++ ':' :: (v ++ (vs ++ (ds ++ rest))))) := by simp
    refine ⟨.cons k (some m₁) d (Cursor.settle ⟨ds ++ rest, m₂⟩ '}') members, m', ?_,
      Members.Hold.cons hdx hrest k _ _⟩
    rw [← readValue_blank hv (by omega)] at hd
    rw [htext, hmember, readMember_ok hd, hmembers]

end

/-! ### Texts that are nested too deeply -/

mutual

/-- The document is that of the value up to a fault. What stands behind the fault is left open. -/
inductive Document.Breaks : Document → Json → Prop
  | broken (e : Misreading) (j : Json) : Document.Breaks (.broken e) j
  | list {before : Option Mark} {items : Items} {xs : List Json} (h : Items.Break items xs) :
    Document.Breaks (.list before items) (.array xs)
  | object {before : Option Mark} {members : Members} {ms : List (String × Json)}
    (h : Members.Break members ms) : Document.Breaks (.object before members) (.object ms)

/-- The items are those of the values up to a fault. -/
inductive Items.Break : Items → List Json → Prop
  | here {d : Document} {settled : Option Mark} {rest : Items} {x : Json} {xs : List Json}
    (h : Document.Breaks d x) : Items.Break (.cons d settled rest) (x :: xs)
  | behind {d : Document} {settled : Option Mark} {rest : Items} {x : Json} {xs : List Json}
    (hx : d.Holds x) (h : Items.Break rest xs) : Items.Break (.cons d settled rest) (x :: xs)

/-- The members are those of the object up to a fault. -/
inductive Members.Break : Members → List (String × Json) → Prop
  | here {k : String} {afterKey settled : Option Mark} {d : Document} {rest : Members} {x : Json}
    {ms : List (String × Json)} (h : Document.Breaks d x) :
    Members.Break (.cons k afterKey d settled rest) ((k, x) :: ms)
  | behind {k : String} {afterKey settled : Option Mark} {d : Document} {rest : Members} {x : Json}
    {ms : List (String × Json)} (hx : d.Holds x) (h : Members.Break rest ms) :
    Members.Break (.cons k afterKey d settled rest) ((k, x) :: ms)

end

mutual

/-- **A text of a value is read up to a fault when it opens more brackets than may be opened.** -/
theorem readValue_nested : (j : Json) → {cs : List Char} → (rest : List Char) →
    (fuel depth : Nat) → j.Exact → Written j cs → cs.length ≤ fuel → 0 < depth →
    depth ≤ j.depth → (m : Mark) →
    ∃ d r, readValue fuel depth ⟨cs ++ rest, m⟩ = (d, r) ∧ d.Breaks j
  | .array xs, _, rest, fuel + 1, depth, hj, ⟨ds, rfl, hds⟩, hfuel, _, hdepth, m => by
    rw [Json.depth] at hdepth
    rw [List.cons_append]
    by_cases hone : depth ≤ 1
    · exact ⟨_, _, readValue_tooDeep hone (.inl rfl) _ m, .broken _ _⟩
    · have hitems := readItems_nested true xs rest fuel (depth - 1) hj hds
        (Nat.le_of_succ_le_succ hfuel) (by omega) (by omega) (m.along 1)
      exact ⟨_, _, readValue_array (by omega) _ m, .list hitems⟩
  | .object ms, _, rest, fuel + 1, depth, hj, ⟨ds, rfl, hds⟩, hfuel, _, hdepth, m => by
    rw [Json.depth] at hdepth
    rw [List.cons_append]
    by_cases hone : depth ≤ 1
    · exact ⟨_, _, readValue_tooDeep hone (.inr rfl) _ m, .broken _ _⟩
    · have hmembers := readMembers_nested true ms rest fuel (depth - 1) hj hds
        (Nat.le_of_succ_le_succ hfuel) (by omega) (by omega) (m.along 1)
      exact ⟨_, _, readValue_object (by omega) _ m, .object hmembers⟩
  | .null, _, _, _, _, _, _, _, hpos, hdepth, _ => absurd hdepth (Nat.not_le.2 hpos)
  | .bool _, _, _, _, _, _, _, _, hpos, hdepth, _ => absurd hdepth (Nat.not_le.2 hpos)
  | .number _, _, _, _, _, _, _, _, hpos, hdepth, _ => absurd hdepth (Nat.not_le.2 hpos)
  | .string _, _, _, _, _, _, _, _, hpos, hdepth, _ => absurd hdepth (Nat.not_le.2 hpos)

theorem readItems_nested (first : Bool) : (xs : List Json) → {cs : List Char} →
    (rest : List Char) → (fuel depth : Nat) → ExactItems xs → WrittenItems first xs cs →
    cs.length ≤ fuel → 0 < depth → depth ≤ depthItems xs → (m : Mark) →
    (readItems fuel depth first ⟨cs ++ rest, m⟩).1.Break xs
  | [], _, _, _, _, _, _, _, hpos, hdepth, _ => absurd hdepth (Nat.not_le.2 hpos)
  | _ :: _, _, _, 0, _, _, h, hfuel, _, _, _ => absurd hfuel (Nat.not_le.2 h.length_pos)
  | x :: xs, _, rest, fuel + 1, depth, ⟨hx, hxs⟩, ⟨w, vs, ds, rfl, hlead, hvs, hds⟩, hfuel, hpos,
      hdepth, m => by
    obtain ⟨c, t, hct, hspace, hclose⟩ := hvs.head hx
    have hdpos := hds.length_pos
    have hvpos : 0 < vs.length := hvs.length_pos hx
    simp only [List.length_append] at hfuel
    rw [depthItems] at hdepth
    obtain ⟨m₁, hitem⟩ := readItems_item fuel depth (t := t ++ (ds ++ rest)) hlead hspace hclose m
    have htext : w ++ (vs ++ ds) ++ rest = w ++ c :: (t ++ (ds ++ rest)) := by simp [hct]
    have hvalue : c :: (t ++ (ds ++ rest)) = vs ++ (ds ++ rest) := by rw [hct, List.cons_append]
    rw [htext, hitem, hvalue]
    -- the fault is in this item, or this item is read and the fault is in a later one
    by_cases hx' : depth ≤ x.depth
    · obtain ⟨d, r, hd, hbreaks⟩ := readValue_nested x (ds ++ rest) fuel depth hx hvs
        (by omega) hpos hx' m₁
      obtain ⟨settled, others, heq⟩ := readItem_item hd
      rw [heq]
      exact .here hbreaks
    · obtain ⟨d, m₂, hd, hdx⟩ := readValue_written x (ds ++ rest) fuel depth hx hvs
        hds.endsNumeral (by omega) (by omega) m₁
      rw [readItem_ok hd]
      exact .behind hdx
        (readItems_nested false xs rest fuel depth hxs hds (by omega) hpos (by omega) m₂)

theorem readMembers_nested (first : Bool) : (ms : List (String × Json)) → {cs : List Char} →
    (rest : List Char) → (fuel depth : Nat) → ExactMembers ms → WrittenMembers first ms cs →
    cs.length ≤ fuel → 0 < depth → depth ≤ depthMembers ms → (m : Mark) →
    (readMembers fuel depth first ⟨cs ++ rest, m⟩).1.Break ms
  | [], _, _, _, _, _, _, _, hpos, hdepth, _ => absurd hdepth (Nat.not_le.2 hpos)
  | _ :: _, _, _, 0, _, _, h, hfuel, _, _, _ => absurd hfuel (Nat.not_le.2 h.length_pos)
  | (k, x) :: ms, _, rest, fuel + 1, depth, ⟨hx, hms⟩,
      ⟨w, u, v, vs, ds, rfl, hlead, hu, hv, hvs, hds⟩, hfuel, hpos, hdepth, m => by
    have hdpos := hds.length_pos
    simp only [List.length_append, List.length_cons] at hfuel
    rw [depthMembers] at hdepth
    obtain ⟨m₁, hmember⟩ := readMembers_member fuel depth (t := v ++ (vs ++ (ds ++ rest)))
      hlead hu k m
    have htext : w ++ (quoteChars k ++ (u ++ ':' :: (v ++ (vs ++ ds)))) ++ rest =
        w ++ (quoteChars k ++ (u ++ ':' :: (v ++ (vs ++ (ds ++ rest))))) := by simp
    rw [htext, hmember]
    by_cases hx' : depth ≤ x.depth
    · obtain ⟨d, r, hd, hbreaks⟩ := readValue_nested x (ds ++ rest) fuel depth hx hvs
        (by omega) hpos hx' ((m₁.along 1).pastAll v)
      rw [← readValue_blank hv (by omega)] at hd
      obtain ⟨settled, others, heq⟩ := readMember_value hd
      rw [heq]
      exact .here hbreaks
    · obtain ⟨d, m₂, hd, hdx⟩ := readValue_written x (ds ++ rest) fuel depth hx hvs
        hds.endsNumeral (by omega) (by omega) ((m₁.along 1).pastAll v)
      rw [← readValue_blank hv (by omega)] at hd
      rw [readMember_ok hd]
      exact .behind hdx
        (readMembers_nested false ms rest fuel depth hms hds (by omega) hpos (by omega) m₂)

end

/-! ### Whole texts -/

/-- **A text of a value that opens at most 127 brackets at once is read as that value, and nothing
is left behind it.** -/
theorem Document.read_written {j : Json} {s : String} (hj : j.Exact) (h : Written j s.toList)
    (hdepth : j.depth < depthLimit) : ∃ d, Document.read s = (d, none) ∧ d.Holds j := by
  obtain ⟨d, m', hread, hd⟩ := readValue_written j [] (2 * s.toList.length + 2) depthLimit hj h
    endsNumeral_nil (by omega) hdepth ⟨1, 0⟩
  rw [List.append_nil] at hread
  refine ⟨d, ?_, hd⟩
  rw [Document.read, Cursor.start, hread]
  rfl

/-- **A text of a value that opens more brackets than that is read up to a fault.** -/
theorem Document.read_nested {j : Json} {s : String} (hj : j.Exact) (h : Written j s.toList)
    (hdepth : depthLimit ≤ j.depth) : (Document.read s).1.Breaks j := by
  obtain ⟨d, r, hread, hd⟩ := readValue_nested j [] (2 * s.toList.length + 2) depthLimit hj h
    (by omega) (by decide) hdepth ⟨1, 0⟩
  rw [List.append_nil] at hread
  rw [Document.read, Cursor.start, hread]
  cases r with
  | error e => exact hd
  | ok c =>
    dsimp only
    split <;> exact hd

end Json

end Conductor

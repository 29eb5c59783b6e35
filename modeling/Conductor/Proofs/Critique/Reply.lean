import Conductor.Critique.Basic
import Conductor.Proofs.Json.Places

/-!
# When a critique is satisfied

A critique is looked for in the text of a reply. A text of an object says it by its fields, whatever
else stands in the object, and a text of an array by its items, which stand for the fields in their
order. All other replies are taken as plain text, and that is never satisfied.

* `Critique.said` : what is said by the fields of a critique;
* `Critique.ofReply_of_said`, `Critique.ofReply_of_unread` : **a reply is taken for what it says, or
  else as plain text;**
* `Critique.Affirms` : an object that has `true` for `goal_satisfied`, or an array that has it as
  the second item;
* `Critique.satisfied_iff` : **a critique is satisfied only by such a value;**
* `Critique.satisfied_written_iff` : other members of an object may be nested however deeply.
-/

namespace Conductor

open Json

namespace Critique

/-! ### What a reply says -/

/-- The names of the fields. -/
def replyNames : List String := ["assessment", "goal_satisfied", "recommendation"]

/-- The fields of the form of a critique in a reply. -/
def replyFields : List (String × Presence × Format) :=
  [("assessment", .default (.string ""), .string),
    ("goal_satisfied", .default (.bool false), .bool), ("recommendation", .nullable, .string)]

theorem replyFormat_eq : replyFormat = .open_ "CritiqueReply" replyFields := rfl

theorem replyFields_whole : ∀ field ∈ replyFields, field.2.2.Whole := by
  simp [replyFields, Format.string, Format.Whole.text, Format.Whole.bool]

/-- What is said by the fields of a critique; each of them may be left out. -/
def said (field : String → Option Json) : Option Critique := do
  let assessment ← ((field "assessment").map text?).getD (some "")
  let satisfied ← ((field "goal_satisfied").map bool?).getD (some false)
  let recommendation ← ((field "recommendation").map (Json.optional text?)).getD (some none)
  return ⟨assessment, satisfied, .ofReply recommendation⟩

section Fill

variable {src : Source}

theorem fieldValue_bool_default (b : Bool) (w : Option Json) :
    fieldValue src (.default (.bool b), .bool) w =
      ((w.map bool?).getD (some b)).map .bool := by
  cases w with
  | none => rfl
  | some j =>
    rw [fieldValue_default]
    cases j <;> rfl

theorem fieldValue_text_default (s : String) (w : Option Json) :
    fieldValue src (.default (.string s), .string) w =
      ((w.map text?).getD (some s)).map .string := by
  cases w with
  | none => rfl
  | some j =>
    rw [fieldValue_default]
    cases j <;> rfl

theorem fieldValue_text_nullable (w : Option Json) :
    fieldValue src (.nullable, .string) w =
      ((w.map (Json.optional text?)).getD (some none)).map (.ofOption .string) := by
  cases w with
  | none => rfl
  | some j =>
    cases j with
    | null => rfl
    | string s => rfl
    | _ => exact toOption_anchor

end Fill

/-- A text of a value is read as what the value says. -/
theorem ofText_said {s : String} {j : Json} (hreads : Reads replyNames s j)
    (honce : j.Once replyNames) :
    (replyFormat.ofText s).toOption.bind ofNormal? = (fieldsOf? replyNames j).bind said := by
  have hnames : (replyFields.map (·.1)).Nodup := by decide
  have hreads' : Reads (replyFields.map (·.1)) s j := hreads
  have honce' : j.Once (replyFields.map (·.1)) := honce
  rw [replyFormat_eq, hreads'.toOption_ofText, toOption_readAs_open hnames honce']
  change ((fieldsOf? replyNames j).bind _).bind _ = _
  cases fieldsOf? replyNames j with
  | none => rfl
  | some w =>
    simp only [Option.bind_some, replyFields, fill, fieldValue_text_default,
      fieldValue_bool_default, fieldValue_text_nullable, said]
    cases ((w "assessment").map text?).getD (some "") with
    | none => rfl
    | some assessment =>
      cases ((w "goal_satisfied").map bool?).getD (some false) with
      | none => rfl
      | some satisfied =>
        cases ((w "recommendation").map (Json.optional text?)).getD (some none) with
        | none => rfl
        | some recommendation => cases recommendation <;> rfl

variable {reply : String}

/-- **A reply is taken for what it says**, or else as plain text. -/
theorem ofReply_of_said {j : Json} (hreads : Reads replyNames (Text.stripFence reply) j)
    (honce : j.Once replyNames) :
    ofReply reply =
      ((fieldsOf? replyNames j).bind said).getD (ofPlainText (Text.stripFence reply)) := by
  have hbind : (replyFormat.ofText (Text.stripFence reply)).toOption >>= ofNormal? =
      (fieldsOf? replyNames j).bind said := ofText_said hreads honce
  unfold ofReply
  simp only [hbind]
  cases (fieldsOf? replyNames j).bind said <;> rfl

/-- A reply that repeats a field is taken as plain text. -/
theorem ofReply_of_repeated {j : Json} (hreads : Reads replyNames (Text.stripFence reply) j)
    (hrepeated : ¬ j.Once replyNames) :
    ofReply reply = ofPlainText (Text.stripFence reply) := by
  have hreads' : Reads (replyFields.map (·.1)) (Text.stripFence reply) j := hreads
  have hnone : (replyFormat.ofText (Text.stripFence reply)).toOption = none := by
    rw [replyFormat_eq, hreads'.toOption_ofText]
    exact toOption_readAs_open_repeated hrepeated
  unfold ofReply
  simp only [hnone]
  rfl

/-- **A reply that is no text of a value is taken as plain text.** -/
theorem ofReply_of_unread (h : ∀ j, ¬ Reads replyNames (Text.stripFence reply) j) :
    ofReply reply = ofPlainText (Text.stripFence reply) := by
  have hnone : (replyFormat.ofText (Text.stripFence reply)).toOption = none := by
    cases hread : replyFormat.ofText (Text.stripFence reply) with
    | error e => rfl
    | ok v =>
      rw [replyFormat_eq] at hread
      obtain ⟨j, hj⟩ := Format.exists_reads replyFields_whole hread
      exact absurd hj (h j)
  unfold ofReply
  simp only [hnone]
  rfl

/-! ### Satisfied critiques -/

/-- A text, or nothing. -/
def TextIfAny (w : Option Json) : Prop := ∀ j ∈ w, ∃ s, j = .string s

/-- A text, `null` or nothing. -/
def TextOrNullIfAny (w : Option Json) : Prop := ∀ j ∈ w, j = .null ∨ ∃ s, j = .string s

/-- A value that says outright that the goal is satisfied. -/
inductive Affirms : Json → Prop
  /-- An object that has `true` for `goal_satisfied` and no other field of a wrong type. -/
  | object {ms : List (String × Json)} (honce : (Json.object ms).Once replyNames)
      (hsatisfied : ms.lookup "goal_satisfied" = some (.bool true))
      (hassessment : TextIfAny (ms.lookup "assessment"))
      (hrecommendation : TextOrNullIfAny (ms.lookup "recommendation")) : Affirms (.object ms)
  /-- An array with `true` as its second item, between those of the other fields. -/
  | array {assessment : String} {rest : List Json} (hlength : rest.length ≤ 1)
      (hrecommendation : TextOrNullIfAny rest.head?) :
      Affirms (.array (.string assessment :: .bool true :: rest))

theorem ofPlainText_unsatisfied (body : String) : (ofPlainText body).goalSatisfied = false := by
  unfold ofPlainText
  split <;> rfl

theorem text_iff {w : Option Json} {s : String} :
    (∃ t, (w.map text?).getD (some s) = some t) ↔ TextIfAny w := by
  cases w with
  | none => simp [TextIfAny]
  | some j => cases j <;> simp [TextIfAny, text?]

theorem textOrNull_iff {w : Option Json} :
    (∃ t, (w.map (Json.optional text?)).getD (some none) = some t) ↔ TextOrNullIfAny w := by
  cases w with
  | none => simp [TextOrNullIfAny]
  | some j => cases j <;> simp [TextOrNullIfAny, Json.optional, text?]

/-- What is said by some fields is satisfied just if `true` is written and the rest is in order. -/
theorem said_satisfied_iff {field : String → Option Json} :
    (∃ c, said field = some c ∧ c.goalSatisfied = true) ↔
      field "goal_satisfied" = some (.bool true) ∧ TextIfAny (field "assessment") ∧
        TextOrNullIfAny (field "recommendation") := by
  rw [← text_iff (s := ""), ← textOrNull_iff, said]
  have hbool : ((field "goal_satisfied").map bool?).getD (some false) = some true ↔
      field "goal_satisfied" = some (.bool true) := by
    cases field "goal_satisfied" with
    | none => simp
    | some j => cases j <;> simp [bool?]
  rw [← hbool]
  cases ((field "assessment").map text?).getD (some "") with
  | none => simp
  | some assessment =>
    cases ((field "goal_satisfied").map bool?).getD (some false) with
    | none => simp
    | some satisfied =>
      cases ((field "recommendation").map (Json.optional text?)).getD (some none) with
      | none => simp
      | some recommendation => simp

theorem lookup_items (a b : Json) (rest : List Json) :
    (replyNames.zip (a :: b :: rest)).lookup "assessment" = some a ∧
      (replyNames.zip (a :: b :: rest)).lookup "goal_satisfied" = some b ∧
      (replyNames.zip (a :: b :: rest)).lookup "recommendation" = rest.head? := by
  refine ⟨rfl, rfl, ?_⟩
  cases rest <;> rfl

/-- An array with so many items stands for the fields. -/
theorem fieldsOf?_array {xs : List Json} (h : xs.length ≤ 3) :
    fieldsOf? replyNames (.array xs) = some fun k => (replyNames.zip xs).lookup k := if_pos h

/-- It is the fields of a value that affirm. -/
theorem affirms_iff {j : Json} :
    Affirms j ↔ j.Once replyNames ∧
      ∃ c, (fieldsOf? replyNames j).bind said = some c ∧ c.goalSatisfied = true := by
  constructor
  · rintro (⟨honce, hsatisfied, hassessment, hrecommendation⟩ | ⟨hlength, hrecommendation⟩)
    · next ms =>
      have hsaid : ∃ c, said (fun k => ms.lookup k) = some c ∧ c.goalSatisfied = true :=
        said_satisfied_iff.2 ⟨hsatisfied, hassessment, hrecommendation⟩
      exact ⟨honce, hsaid⟩
    · next assessment rest =>
      obtain ⟨hfirst, hsecond, hthird⟩ := lookup_items (.string assessment) (.bool true) rest
      have hitems : (Json.string assessment :: .bool true :: rest).length ≤ 3 :=
        Nat.succ_le_succ (Nat.succ_le_succ hlength)
      rw [fieldsOf?_array hitems, Option.bind_some]
      refine ⟨trivial, said_satisfied_iff.2 ⟨hsecond, ?_, ?_⟩⟩
      · rw [hfirst]
        simp [TextIfAny]
      · rwa [hthird]
  · rintro ⟨honce, c, hsaid, hc⟩
    cases j with
    | object ms =>
      have hfields : said (fun k => ms.lookup k) = some c := hsaid
      obtain ⟨hsatisfied, hassessment, hrecommendation⟩ := said_satisfied_iff.1 ⟨c, hfields, hc⟩
      exact .object honce hsatisfied hassessment hrecommendation
    | array xs =>
      by_cases hlength : xs.length ≤ 3
      · rw [fieldsOf?_array hlength, Option.bind_some] at hsaid
        obtain ⟨hsatisfied, hassessment, hrecommendation⟩ := said_satisfied_iff.1 ⟨c, hsaid, hc⟩
        match xs with
        | [] => cases hsatisfied
        | [_] => cases hsatisfied
        | a :: b :: rest =>
          obtain ⟨hfirst, hsecond, hthird⟩ := lookup_items a b rest
          rw [hfirst] at hassessment
          rw [hsecond] at hsatisfied
          rw [hthird] at hrecommendation
          obtain rfl := Option.some.inj hsatisfied
          obtain ⟨s, rfl⟩ := hassessment a rfl
          exact .array (Nat.le_of_succ_le_succ (Nat.le_of_succ_le_succ hlength)) hrecommendation
      · have hnone : fieldsOf? replyNames (.array xs) = none := if_neg hlength
        rw [hnone] at hsaid
        cases hsaid
    | _ => cases hsaid

/-- A reply that is a text of a value is satisfied just if the value affirms. -/
theorem satisfied_of_reads {j : Json} (hreads : Reads replyNames (Text.stripFence reply) j) :
    (ofReply reply).goalSatisfied = true ↔ Affirms j := by
  rw [affirms_iff]
  by_cases honce : j.Once replyNames
  · rw [ofReply_of_said hreads honce]
    cases (fieldsOf? replyNames j).bind said with
    | none => simp [ofPlainText_unsatisfied]
    | some c => simp [honce]
  · rw [ofReply_of_repeated hreads honce, ofPlainText_unsatisfied]
    simp [honce]

/-- **A critique is satisfied just if the reply is a text of a value that affirms.** -/
theorem satisfied_iff : (ofReply reply).goalSatisfied = true ↔
    ∃ j, Reads replyNames (Text.stripFence reply) j ∧ Affirms j := by
  constructor
  · intro h
    by_cases hreads : ∃ j, Reads replyNames (Text.stripFence reply) j
    · obtain ⟨j, hj⟩ := hreads
      exact ⟨j, hj, (satisfied_of_reads hj).1 h⟩
    · rw [ofReply_of_unread (not_exists.1 hreads), ofPlainText_unsatisfied] at h
      cases h
  · rintro ⟨j, hj, haffirms⟩
    exact (satisfied_of_reads hj).2 haffirms

/-- A number out of range and half a pair do no harm in a member that is passed over. -/
example : (ofReply
    "\x7b\"note\": [1e999, \"\\ud800\"], \"goal_satisfied\": true\x7d").goalSatisfied = true := by
  decide +kernel

/-! ### Other members -/

/-- Members that are no fields neither help to affirm nor keep from it. -/
theorem affirms_only_iff {ms : List (String × Json)} :
    Affirms ((Json.object ms).only replyNames.contains) ↔ Affirms (.object ms) := by
  have honce : ((Json.object ms).only replyNames.contains).Once replyNames ↔
      (Json.object ms).Once replyNames := by
    rw [Json.only, Once, Once, List.filter_map, List.filter_map, List.filter_filter]
    simp [Function.comp_def]
  have hsaid : (fieldsOf? replyNames ((Json.object ms).only replyNames.contains)).bind said =
      (fieldsOf? replyNames (.object ms)).bind said := by
    rw [Json.only, fieldsOf?, fieldsOf?, Option.bind_some, Option.bind_some]
    simp only [said, lookup_filter]
    rfl
  rw [affirms_iff, affirms_iff, honce, hsaid]

/-- **A reply that is a text of an object is satisfied just if the object affirms**, however deeply
its other members are nested. -/
theorem satisfied_written_iff {ms : List (String × Json)} (hexact : (Json.object ms).Exact)
    (hwritten : Written (.object ms) (Text.stripFence reply).toList)
    (hdepth : ∀ m ∈ ms, m.1 ∈ replyNames → m.2.depth < 127) :
    (ofReply reply).goalSatisfied = true ↔ Affirms (.object ms) :=
  (satisfied_of_reads (.of_written hexact hwritten hdepth)).trans affirms_only_iff

end Critique

end Conductor

import Conductor.Proofs.Json.Fields
import Conductor.Proofs.Json.Passing

/-!
# Places have no part in what is read

A document carries the places that a refusal names. Whether the document has a format, and what its
normal form is, does not depend on them. So a text is read as the value that is written in it, with
the members as they stand there; and a record that may have other fields is read as the value of its
own fields, whatever stands in the others.

* `Json.toOption_readAs_unmarked` : **a document has a format with its places just as without;**
* `Json.Document.exists_holds` : a document without a fault is one of a value;
* `Json.Reads`, `Json.Reads.of_written` : a text is one of a value, as far as some names go;
* `Json.Reads.toOption_ofText`, `Json.Format.exists_reads` : **a record is read from a text as from
  the document of that value, and from no other text.**
-/

namespace Conductor

namespace Json

variable {src : Source} {f : Format} {d : Document} {items : Items} {members : Members}

/-! ### Parts of a format -/

theorem toOption_wrongType {α : Type} {expected : String} :
    (wrongType src d expected : Except Refusal α).toOption = none := by cases d <;> rfl

theorem toOption_readScalar {v : Scalar} {place : Option Span} :
    (readScalar src v place f).toOption = (readScalar src v none f).toOption := by
  unfold readScalar
  cases f with
  | text expected check =>
    cases v with
    | string s =>
      simp only
      cases check s <;> rfl
    | _ => exact toOption_wrongType.trans toOption_wrongType.symm
  | unsigned name bound =>
    cases v with
    | number n =>
      cases n with
      | int n =>
        simp only
        split <;> rfl
      | float x => exact toOption_wrongType.trans toOption_wrongType.symm
    | _ => exact toOption_wrongType.trans toOption_wrongType.symm
  | choice variants =>
    cases v <;> simp only <;> split <;> rfl
  | _ => cases v <;> rfl

theorem toOption_readTag_unmarked {variants : List String} :
    (readTag src variants d.unmarked).toOption = (readTag src variants d).toOption := by
  cases d with
  | scalar v place =>
    cases v with
    | string s =>
      rw [Document.unmarked, readTag, readTag]
      split <;> rfl
    | _ => rfl
  | _ => rfl

theorem toOption_findTag_unmarked {tag : String} {variants : List String} :
    (members : Members) → (found : Option String) →
      (findTag src tag variants found members.unmarked).toOption =
        (findTag src tag variants found members).toOption
  | .close _, found => by cases found <;> rfl
  | .cut _, _ => rfl
  | .cons key _ value _ rest, found => by
    rw [Members.unmarked, findTag, findTag]
    split
    · split
      · rfl
      · rw [toOption_bind, toOption_bind, toOption_readTag_unmarked]
        exact congrArg _ (funext fun v => toOption_findTag_unmarked rest (some v))
    · rw [toOption_bind, toOption_bind, value.value_unmarked]
      exact congrArg _ (funext fun _ => toOption_findTag_unmarked rest found)

/-- The value of a field, with its place and without. -/
theorem toOption_readField_unmarked {presence : Presence} {settled : Option Mark}
    (h : (readAs src f d.unmarked).toOption = (readAs src f d).toOption) :
    (readField src presence f none d.unmarked).toOption =
      (readField src presence f settled d).toOption := by
  have hanchored : (anchor (src.place none) (readAs src f d.unmarked)).toOption =
      (anchor (src.place settled) (readAs src f d)).toOption := by
    rw [toOption_anchor, toOption_anchor, h]
  cases presence with
  | nullable =>
    cases d with
    | scalar v place => cases v <;> first | rfl | exact hanchored
    | _ => exact hanchored
  | _ => exact hanchored

/-! ### Documents -/

mutual

/-- **A document has a format with its places just as without.** -/
theorem toOption_readAs_unmarked : (d : Document) → (src : Source) → (f : Format) →
    (readAs src f d.unmarked).toOption = (readAs src f d).toOption
  | .broken _, _, _ => rfl
  | .scalar _ _, _, _ => toOption_readScalar.symm
  | .list before items, src, f => by
    rw [Document.unmarked]
    cases f with
    | any =>
      rw [readAs, readAs, toOption_bind, toOption_bind, items.values_unmarked]
    | list item =>
      rw [readAs, readAs, toOption_bind, toOption_bind, toOption_readEach_unmarked items]
    | record name closed fields finish =>
      rw [toOption_readAs_list_record, toOption_readAs_list_record,
        toOption_readTuple_unmarked items]
    | choice variants =>
      rw [readAs, readAs]
      split <;> rfl
    | tagged name tag variants =>
      cases items with
      | close _ => rfl
      | cut _ => rfl
      | cons item settled rest =>
        rw [Items.unmarked, toOption_readAs_list_tagged, toOption_readAs_list_tagged,
          toOption_readTag_unmarked, rest.values_unmarked]
        simp only [toOption_readTuple_unmarked rest]
    | _ => rfl
  | .object before members, src, f => by
    rw [Document.unmarked]
    cases f with
    | any =>
      rw [readAs, readAs, toOption_bind, toOption_bind, members.values_unmarked]
    | table value =>
      rw [readAs, readAs, toOption_bind, toOption_bind, toOption_readTable_unmarked members]
    | record name closed fields finish =>
      rw [toOption_readAs_object_record, toOption_readAs_object_record,
        toOption_readFields_unmarked members]
    | choice variants =>
      rw [readAs, readAs, readChoiceObject, readChoiceObject, members.values_unmarked]
    | tagged name tag variants =>
      rw [toOption_readAs_object_tagged, toOption_readAs_object_tagged,
        toOption_findTag_unmarked members]
      simp only [toOption_readFields_unmarked members]
    | _ => rfl

theorem toOption_readEach_unmarked : (items : Items) → (src : Source) → (f : Format) →
    (readEach src f items.unmarked).toOption = (readEach src f items).toOption
  | .close _, _, _ => rfl
  | .cut _, _, _ => rfl
  | .cons item settled rest, src, f => by
    rw [Items.unmarked, readEach, readEach, toOption_bind, toOption_bind, toOption_anchor,
      toOption_anchor, toOption_readAs_unmarked item]
    refine congrArg _ (funext fun v => ?_)
    rw [toOption_bind, toOption_bind, toOption_readEach_unmarked rest]

theorem toOption_readTuple_unmarked : (items : Items) → (src : Source) → (expected : String) →
    (closed : Bool) → (total index : Nat) → (fields : List (String × Presence × Format)) →
    (readTuple src expected closed total index fields items.unmarked).toOption.map (·.1) =
      (readTuple src expected closed total index fields items).toOption.map (·.1)
  | .close _, _, _, _, _, _, fields => by
    rw [Items.unmarked]
    unfold readTuple
    cases complete [] fields <;> rfl
  | .cut _, _, _, _, _, _, _ => rfl
  | .cons item settled rest, src, expected, closed, total, index, fields => by
    rw [Items.unmarked]
    cases fields with
    | nil => rfl
    | cons field fields =>
      obtain ⟨name, presence, f⟩ := field
      rw [toOption_readTuple_cons, toOption_readTuple_cons,
        toOption_readField_unmarked (toOption_readAs_unmarked item src f),
        toOption_readTuple_unmarked rest]

theorem toOption_readTable_unmarked : (members : Members) → (src : Source) → (f : Format) →
    (readTable src f members.unmarked).toOption = (readTable src f members).toOption
  | .close _, _, _ => rfl
  | .cut _, _, _ => rfl
  | .cons key afterKey value settled rest, src, f => by
    rw [Members.unmarked, readTable, readTable, toOption_bind, toOption_bind, toOption_anchor,
      toOption_anchor, toOption_readAs_unmarked value]
    refine congrArg _ (funext fun v => ?_)
    rw [toOption_bind, toOption_bind, toOption_readTable_unmarked rest]

theorem toOption_readFields_unmarked : (members : Members) → (src : Source) →
    (passed : Option String) → (closed : Bool) → (fields : List (String × Presence × Format)) →
    (found : List (String × Json)) →
    (readFields src passed closed fields found members.unmarked).toOption.map (·.1) =
      (readFields src passed closed fields found members).toOption.map (·.1)
  | .close _, _, _, _, _, _ => rfl
  | .cut _, _, _, _, _, _ => rfl
  | .cons key afterKey value settled rest, src, passed, closed, fields, found => by
    rw [Members.unmarked]
    by_cases hpassed : passed = some key
    · rw [readFields, readFields, if_pos hpassed, if_pos hpassed]
      exact toOption_readFields_unmarked rest ..
    · cases hfield : fields.lookup key with
      | none =>
        rw [readFields, readFields, if_neg hpassed, if_neg hpassed, hfield]
        simp only
        split
        · rfl
        · exact toOption_readFields_unmarked rest ..
      | some field =>
        obtain ⟨presence, f⟩ := field
        cases hfound : (found.lookup key).isSome with
        | true =>
          rw [readFields, readFields, if_neg hpassed, if_neg hpassed, hfield]
          simp only [hfound, if_true]
          rfl
        | false =>
          rw [toOption_readFields_field hpassed hfield hfound,
            toOption_readFields_field hpassed hfield hfound,
            toOption_readField_unmarked (toOption_readAs_unmarked value src f)]
          exact congrArg _ (funext fun v => toOption_readFields_unmarked rest ..)

end

/-! ### Values -/

mutual

/-- **A document without a fault is one of a value.** -/
theorem Document.exists_holds : (d : Document) → {v : Json} → d.value = .ok v → ∃ j, d.Holds j
  | .scalar v _, _, _ => ⟨v.toJson, by cases v <;> rfl⟩
  | .broken _, _, h => nomatch h
  | .list before items, _, h => by
    obtain ⟨vs, hvs, -⟩ := ok_of_bind h
    obtain ⟨xs, hxs⟩ := Items.exists_hold items hvs
    exact ⟨.array xs, congrArg (Document.list none) hxs⟩
  | .object before members, _, h => by
    obtain ⟨vs, hvs, -⟩ := ok_of_bind h
    obtain ⟨ms, hms⟩ := Members.exists_hold members hvs
    exact ⟨.object ms, congrArg (Document.object none) hms⟩

theorem Items.exists_hold : (d : Items) → {vs : List Json} → d.values = .ok vs → ∃ xs, d.Hold xs
  | .close _, _, _ => ⟨[], rfl⟩
  | .cut _, _, h => nomatch h
  | .cons item settled rest, _, h => by
    obtain ⟨v, hv, h⟩ := ok_of_bind h
    obtain ⟨vs, hvs, -⟩ := ok_of_bind h
    obtain ⟨x, hx⟩ := Document.exists_holds item hv
    obtain ⟨xs, hxs⟩ := Items.exists_hold rest hvs
    exact ⟨x :: xs, .cons hx hxs settled⟩

theorem Members.exists_hold : (d : Members) → {vs : List (String × Json)} → d.values = .ok vs →
    ∃ ms, d.Hold ms
  | .close _, _, _ => ⟨[], rfl⟩
  | .cut _, _, h => nomatch h
  | .cons key afterKey value settled rest, _, h => by
    obtain ⟨v, hv, h⟩ := ok_of_bind h
    obtain ⟨vs, hvs, -⟩ := ok_of_bind h
    obtain ⟨x, hx⟩ := Document.exists_holds value hv
    obtain ⟨ms, hms⟩ := Members.exists_hold rest hvs
    exact ⟨(key, x) :: ms, .cons hx hms key afterKey settled⟩

end

theorem Document.Holds.toOption_readAs {j : Json} (h : d.Holds j) :
    (readAs src f d).toOption = (readAs src f (.ofJson j)).toOption := by
  rw [← toOption_readAs_unmarked d src f, h]

/-! ### Records without a fault in their fields -/

/-- A document that has the format has no fault. -/
def Format.Whole (f : Format) : Prop :=
  ∀ src d v, readAs src f d = .ok v → ∃ w, d.value = .ok w

theorem Format.Whole.text {expected : String} {check : String → Except String Unit} :
    (Format.text expected check).Whole := by
  intro src d v h
  cases d with
  | scalar v place => exact ⟨_, rfl⟩
  | _ => cases h

theorem Format.Whole.bool : Format.bool.Whole := by
  intro src d v h
  cases d with
  | scalar v place => exact ⟨_, rfl⟩
  | _ => cases h

section Whole

variable {fields : List (String × Presence × Format)}

theorem Format.Whole.readField {presence : Presence} {settled : Option Mark} {v : Json}
    (hf : f.Whole) (h : readField src presence f settled d = .ok v) : ∃ w, d.value = .ok w := by
  unfold Json.readField at h
  split at h
  · exact ⟨_, rfl⟩
  · exact hf src d v (ok_of_anchor h)

theorem values_of_readTuple {expected : String} {closed : Bool} {total index : Nat}
    {r : List (String × Json) × Option Mark} (hfields : ∀ field ∈ fields, field.2.2.Whole)
    (h : readTuple src expected closed total index fields items = .ok r) :
    ∃ vs, items.values = .ok vs := by
  induction fields generalizing items index r with
  | nil =>
    cases items with
    | close after => exact ⟨[], rfl⟩
    | _ => cases h
  | cons field fields ih =>
    obtain ⟨name, presence, f⟩ := field
    obtain ⟨hf, hfields⟩ := List.forall_mem_cons.1 hfields
    cases items with
    | close after => exact ⟨[], rfl⟩
    | cut e => cases h
    | cons item settled rest =>
      rw [readTuple_cons] at h
      obtain ⟨v, hv, h⟩ := ok_of_bind h
      obtain ⟨others, hothers, -⟩ := ok_of_bind h
      obtain ⟨w, hw⟩ := hf.readField hv
      obtain ⟨ws, hws⟩ := ih hfields hothers
      exact ⟨w :: ws, by rw [Items.values, hw, hws]; rfl⟩

/-- A member that is no field may have a fault. -/
theorem values_of_readFields (hfields : ∀ field ∈ fields, field.2.2.Whole) :
    (members : Members) → {found : List (String × Json)} →
    {r : List (String × Json) × Option Mark} →
    readFields src none false fields found members = .ok r →
    ∃ vs, (members.only (known none fields)).values = .ok vs
  | .close _, _, _, _ => ⟨[], rfl⟩
  | .cut _, _, _, h => by cases h
  | .cons k afterKey d settled rest, found, r, h => by
    rw [Members.only]
    cases hk : known none fields k with
    | false =>
      rw [readFields_unknown hk] at h
      rw [if_neg Bool.false_ne_true]
      exact values_of_readFields hfields rest h
    | true =>
      have hpassed : none ≠ some k := (Option.some_ne_none k).symm
      obtain ⟨⟨presence, f⟩, hfield⟩ :=
        Option.isSome_iff_exists.1 (Bool.and_eq_true_iff.1 hk).2
      obtain ⟨v, hv, h⟩ := readFields_field_ok hpassed hfield h
      have hf : f.Whole := hfields (k, presence, f) (mem_of_lookup hfield)
      obtain ⟨w, hw⟩ := hf.readField hv
      obtain ⟨ws, hws⟩ := values_of_readFields hfields rest h
      exact ⟨(k, w) :: ws, by rw [if_pos rfl, Members.values, hw, hws]; rfl⟩

/-- A record that is read has no fault in its own fields. -/
theorem value_of_readAs_open {name : String} {v : Json}
    (hfields : ∀ field ∈ fields, field.2.2.Whole)
    (h : readAs src (.open_ name fields) d = .ok v) :
    ∃ w, (d.only (known none fields)).value = .ok w := by
  unfold Format.open_ at h
  cases d with
  | scalar v place => exact ⟨_, rfl⟩
  | broken e => cases h
  | list before items =>
    rw [readAs] at h
    obtain ⟨r, hr, -⟩ := ok_of_bind h
    obtain ⟨vs, hvs⟩ := values_of_readTuple hfields hr
    exact ⟨.array vs, by simp only [Document.only, Document.value, hvs]; rfl⟩
  | object before members =>
    rw [readAs] at h
    obtain ⟨r, hr, -⟩ := ok_of_bind h
    obtain ⟨vs, hvs⟩ := values_of_readFields hfields members hr
    exact ⟨.ofMembers vs, by rw [Document.only, Document.value, hvs]; rfl⟩

end Whole

/-! ### Texts -/

/-- The text is one of the value, with the members of each object as they stand in it; but members
of other than the given names are left out of the value, and may hold anything that can be passed
over. -/
def Reads (names : List String) (s : String) (j : Json) : Prop :=
  ∃ d, Document.read s = (d, none) ∧ (d.only names.contains).Holds j

/-- The members of an object are read as far as they are wanted, if their brackets may be opened. -/
theorem readMembers_wanted {wanted : String → Bool} {fuel depth : Nat} {first : Bool}
    {ms : List (String × Json)} {cs : List Char} (hexact : ExactMembers ms)
    (hwritten : WrittenMembers first ms cs) (hfuel : cs.length ≤ fuel)
    (hdepth : ∀ m ∈ ms, wanted m.1 = true → m.2.depth < depth) (rest : List Char) (m : Mark) :
    ∃ d m', readMembers fuel depth first ⟨cs ++ rest, m⟩ = (d, .ok ⟨rest, m'⟩) ∧
      (d.only wanted).Hold (ms.filter fun m => wanted m.1) := by
  induction ms generalizing fuel first cs m with
  | nil =>
    have hpos := hwritten.length_pos
    obtain ⟨w, rfl, hw⟩ := hwritten
    obtain ⟨fuel, rfl⟩ := Nat.exists_eq_succ_of_ne_zero (by omega : fuel ≠ 0)
    rw [List.append_assoc]
    exact ⟨_, _, readMembers_close hw m, rfl⟩
  | cons p ms ih =>
    have hpos := hwritten.length_pos
    obtain ⟨k, x⟩ := p
    obtain ⟨hx, hms⟩ := hexact
    obtain ⟨w, u, v, vs, ds, rfl, hlead, hu, hv, hvs, hds⟩ := hwritten
    obtain ⟨hxdepth, hdepths⟩ := List.forall_mem_cons.1 hdepth
    obtain ⟨fuel, rfl⟩ := Nat.exists_eq_succ_of_ne_zero (by omega : fuel ≠ 0)
    simp only [List.length_append, List.length_cons] at hfuel
    obtain ⟨m₁, hmember⟩ := readMembers_member fuel depth (t := v ++ (vs ++ (ds ++ rest)))
      hlead hu k m
    have hvalue : vs.length ≤ fuel := by omega
    have hothers : ds.length ≤ fuel := by omega
    obtain ⟨d, settled, m₂, hd, hholds⟩ :=
      readMember_written hx hv hvs hds.endsNumeral hvalue depth k m₁ (m₁.along 1)
    obtain ⟨members, m', hmembers, hrest⟩ := ih hms hds hothers hdepths m₂
    have htext : w ++ (quoteChars k ++ (u ++ ':' :: (v ++ (vs ++ ds)))) ++ rest =
        w ++ (quoteChars k ++ (u ++ ':' :: (v ++ (vs ++ (ds ++ rest))))) := by simp
    refine ⟨.cons k (some m₁) d settled members, m', by rw [htext, hmember, hd, hmembers], ?_⟩
    rw [Members.only, List.filter_cons]
    split
    · exact .cons (hholds (hxdepth ‹_›)) hrest ..
    · exact hrest

section Reads

variable {name s : String} {fields : List (String × Presence × Format)} {j v : Json}

/-- **A text of an object is one of the value of some of its members**, if the brackets of those may
be opened. What else the object has may be nested however deeply. -/
theorem Reads.of_written {names : List String} {ms : List (String × Json)}
    (hexact : (Json.object ms).Exact) (hwritten : Written (.object ms) s.toList)
    (hdepth : ∀ m ∈ ms, m.1 ∈ names → m.2.depth < 127) :
    Reads names s ((Json.object ms).only names.contains) := by
  obtain ⟨ds, hs, hds⟩ := hwritten
  have hlength : s.toList.length = ds.length + 1 := congrArg List.length hs
  have hwanted : ∀ m ∈ ms, names.contains m.1 = true → m.2.depth < depthLimit - 1 :=
    fun m hm hname => hdepth m hm (List.contains_iff_mem.1 hname)
  obtain ⟨members, m', hread, hmembers⟩ := readMembers_wanted hexact hds
    (by omega : ds.length ≤ 2 * s.toList.length + 1) hwanted [] (Mark.along ⟨1, 0⟩ 1)
  rw [List.append_nil] at hread
  refine ⟨.object (some ⟨1, 0⟩) members, ?_, congrArg (Document.object none) hmembers⟩
  rw [Document.read, Cursor.start, hs, readValue_object (by decide), ← hs, hread]
  rfl

theorem known_names : known none fields = (fields.map (·.1)).contains := funext known_none

/-- **A record is read from a text as from the document of the value of its fields.** -/
theorem Reads.toOption_ofText (h : Reads (fields.map (·.1)) s j) :
    ((Format.open_ name fields).ofText s).toOption =
      (readAs .text (.open_ name fields) (.ofJson j)).toOption := by
  obtain ⟨d, hread, hd⟩ := h
  rw [Format.ofText, hread, ← hd.toOption_readAs, ← known_names, ← readAs_only]

/-- **A text from which a record is read is one of a value, as far as its fields go.** -/
theorem Format.exists_reads (hfields : ∀ field ∈ fields, field.2.2.Whole)
    (h : (Format.open_ name fields).ofText s = .ok v) : ∃ j, Reads (fields.map (·.1)) s j := by
  unfold Format.ofText at h
  split at h
  · next d hread =>
    obtain ⟨w, hw⟩ := value_of_readAs_open hfields h
    obtain ⟨j, hj⟩ := Document.exists_holds _ hw
    exact ⟨j, d, hread, known_names ▸ hj⟩
  · obtain ⟨w, -, h⟩ := ok_of_bind h
    cases h

end Reads

end Json

end Conductor

import Conductor.Proofs.Json.Format

/-!
# What a format looks at

A record that may have other fields, and a tagged object, look up their own names. What else stands
in the object changes neither the normal form nor the refusal, and in a record it may even have a
fault; and the normal form is made of what is written for each field, or of what stands for a field
that is missing.

* `Json.Document.only` : a document without the members of other names;
* `Json.readFields_only`, `Json.readAs_only` : **members that are no fields are passed over;**
* `Json.Format.ofValue_tagged_congr` : **two objects with the same tag and the same fields beside it
  are read the same, and refused the same;**
* `Json.Format.ofValue_tagged`, `Json.Format.ofValue_open` : **the normal form of a tagged object
  and of a record, field by field;**
* `Json.Once`, `Json.toOption_readAs_open`, `Json.toOption_readAs_open_repeated` : a record is read
  from members in any order, if none of its fields stands there twice.
-/

namespace Conductor

namespace Json

/-! ### Some of the members -/

/-- The members with the names that are wanted. -/
def Members.only (wanted : String → Bool) : Members → Members
  | .close after => .close after
  | .cut e => .cut e
  | .cons key afterKey value settled rest =>
    if wanted key then .cons key afterKey value settled (rest.only wanted) else rest.only wanted

/-- The document with those of its members whose names are wanted, if it is an object. -/
def Document.only (wanted : String → Bool) : Document → Document
  | .object before members => .object before (members.only wanted)
  | d => d

/-- The value with those of its members whose names are wanted, if it is an object. -/
def only (wanted : String → Bool) : Json → Json
  | .object ms => .object (ms.filter fun m => wanted m.1)
  | j => j

theorem Members.only_ofJson {wanted : String → Bool} (ms : List (String × Json)) :
    (Members.ofJson ms).only wanted = Members.ofJson (ms.filter fun m => wanted m.1) := by
  induction ms with
  | nil => rfl
  | cons m ms ih =>
    rw [Members.ofJson, Members.only, ih, List.filter_cons]
    split <;> rfl

/-! ### Members that are passed over -/

section Frame

variable {src : Source} {passed : Option String} {fields : List (String × Presence × Format)}
  {found ms ms' : List (String × Json)} {tag : String} {variants : List String}

theorem Source.place_none (src : Source) : src.place none = none := by cases src <;> rfl

theorem Document.value_ofJson_mapError (j : Json) :
    (Document.ofJson j).value.mapError Misreading.refusal = .ok j.sorted := by
  rw [Document.value_ofJson]
  rfl

/-- The name of a field that is looked at. -/
def known (passed : Option String) (fields : List (String × Presence × Format)) (k : String) :
    Bool :=
  decide (passed ≠ some k) && (fields.lookup k).isSome

theorem readFields_unknown {k : String} {afterKey settled : Option Mark} {d : Document}
    {rest : Members} (h : known passed fields k = false) :
    readFields src passed false fields found (.cons k afterKey d settled rest) =
      readFields src passed false fields found rest := by
  rw [readFields]
  split
  · rfl
  · next hpassed =>
    have hfield : fields.lookup k = none := by simpa [known, hpassed] using h
    rw [hfield]
    rfl

/-- **Members that are no fields are passed over**, whatever their values are. -/
theorem readFields_only : (members : Members) → (found : List (String × Json)) →
    readFields src passed false fields found members =
      readFields src passed false fields found (members.only (known passed fields))
  | .close _, _ => rfl
  | .cut _, _ => rfl
  | .cons k afterKey d settled rest, found => by
    rw [Members.only]
    cases hk : known passed fields k with
    | false =>
      rw [readFields_unknown hk, if_neg Bool.false_ne_true]
      exact readFields_only rest found
    | true =>
      obtain ⟨hpassed, hfield⟩ : passed ≠ some k ∧ (fields.lookup k).isSome = true := by
        simpa [known] using hk
      obtain ⟨⟨presence, f⟩, hfield⟩ := Option.isSome_iff_exists.1 hfield
      rw [if_pos rfl]
      -- a field that has been found before is refused in either list
      cases hfound : (found.lookup k).isSome with
      | true =>
        rw [readFields, readFields, if_neg hpassed, if_neg hpassed, hfield]
        simp only [hfound, if_true]
      | false =>
        rw [readFields_field hpassed hfield hfound, readFields_field hpassed hfield hfound]
        refine congrArg _ (funext fun v => ?_)
        exact readFields_only rest ((k, v) :: found)

theorem readFields_known :
    readFields src passed false fields found (Members.ofJson ms) =
      readFields src passed false fields found
        (Members.ofJson (ms.filter fun m => known passed fields m.1)) := by
  rw [readFields_only, Members.only_ofJson]

/-- **A record that may have other fields is read as if they were not there.** -/
theorem readAs_only {name : String} (d : Document) :
    readAs src (.open_ name fields) d =
      readAs src (.open_ name fields) (d.only (known none fields)) := by
  cases d with
  | object before members =>
    unfold Format.open_
    rw [Document.only, readAs, readAs, readFields_only]
  | _ => rfl

theorem readFields_congr (hms : KeyOrdered ms) (hms' : KeyOrdered ms')
    (h : ∀ k ∈ fields.map (·.1), ms.lookup k = ms'.lookup k) :
    readFields src passed false fields found (Members.ofJson ms) =
      readFields src passed false fields found (Members.ofJson ms') := by
  have hfilter : (ms.filter fun m => known passed fields m.1) =
      ms'.filter fun m => known passed fields m.1 := by
    refine Keyed.filter_eq_of_lookup hms hms' fun k hk => ?_
    obtain ⟨field, hfield⟩ := Option.isSome_iff_exists.1 (Bool.and_eq_true_iff.1 hk).2
    exact h k (List.mem_map_of_mem (mem_of_lookup hfield))
  exact readFields_known.trans (hfilter ▸ readFields_known.symm)

/-- The tag of an object is looked up. -/
theorem findTag_ofJson (hms : (ms.map (·.1)).Nodup) :
    findTag src tag variants none (Members.ofJson ms) =
      match ms.lookup tag with
      | none => .error ⟨.missingField tag, none⟩
      | some v => readTag src variants (Document.ofJson v) := by
  induction ms with
  | nil => rw [Members.ofJson, findTag, src.place_none, List.lookup_nil]
  | cons m ms ih =>
    obtain ⟨k, j⟩ := m
    obtain ⟨hk, hms⟩ := List.nodup_cons.1 hms
    rw [Members.ofJson, findTag]
    by_cases htag : k = tag
    · subst htag
      rw [if_pos rfl, List.lookup_cons_self]
      simp only [Option.isSome_none, Bool.false_eq_true, if_false]
      cases readTag src variants (Document.ofJson j) with
      | error e => rfl
      | ok v => exact findTag_found hk (Members.hold_ofJson ms)
    · have hne : (tag == k) = false := beq_false_of_ne (Ne.symm htag)
      rw [if_neg htag, Document.value_ofJson_mapError, List.lookup_cons, hne]
      exact ih hms

/-- **Two objects with the same tag and the same fields beside it are read the same, and refused the
same.** -/
theorem Format.ofValue_tagged_congr {name : String}
    {variants : List (String × String × List (String × Presence × Format))}
    (hms : KeyOrdered ms) (hms' : KeyOrdered ms') (htag : ms.lookup tag = ms'.lookup tag)
    (hfields : ∀ kind, ms.lookup tag = some (.string kind) →
      ∀ k ∈ ((variants.lookup kind).getD ("", [])).2.map (·.1), ms.lookup k = ms'.lookup k) :
    (Format.tagged name tag variants).ofValue (.object ms) =
      (Format.tagged name tag variants).ofValue (.object ms') := by
  unfold Format.ofValue
  rw [Document.ofJson, Document.ofJson, readAs, readAs, findTag_ofJson (nodup_keys hms),
    findTag_ofJson (nodup_keys hms'), ← htag]
  cases hv : ms.lookup tag with
  | none => rfl
  | some v =>
    simp only
    cases hread : readTag .value (variants.map (·.1)) (Document.ofJson v) with
    | error e => rfl
    | ok kind =>
      have hkind : v = .string kind := by
        cases v with
        | string s =>
          rw [Document.ofJson, readTag] at hread
          split at hread
          · rw [Except.ok.inj hread]
          · cases hread
        | _ => cases hread
      simp only [bind, Except.bind]
      rw [readFields_congr hms hms' (hfields kind (hkind ▸ hv))]

end Frame

/-! ### Normal forms of records and tagged objects -/

theorem toOption_bind {ε α β : Type} (x : Except ε α) (f : α → Except ε β) :
    (x >>= f).toOption = x.toOption.bind fun a => (f a).toOption := by cases x <;> rfl

theorem toOption_mapError {ε ε' α : Type} {g : ε → ε'} {x : Except ε α} :
    (x.mapError g).toOption = x.toOption := by cases x <;> rfl

section Compound

variable {src : Source} {items : Items} {members : Members} {name tag : String} {closed : Bool}
  {fields : List (String × Presence × Format)}
  {finish : Json → Except String Json} {before : Option Mark}
  {variants : List (String × String × List (String × Presence × Format))}

theorem toOption_readAs_list_record :
    (readAs src (.record name closed fields finish) (.list before items)).toOption =
      ((readTuple src ("struct " ++ name) closed fields.length 0 fields items).toOption.map
        (·.1)).bind fun found => (finish (.object found)).toOption := by
  rw [readAs, toOption_bind, Option.bind_map]
  refine congrArg _ (funext fun r => ?_)
  obtain ⟨found, after⟩ := r
  dsimp only [Function.comp]
  cases finish (.object found) <;> rfl

theorem toOption_readAs_object_record :
    (readAs src (.record name closed fields finish) (.object before members)).toOption =
      ((readFields src none closed fields [] members).toOption.map (·.1)).bind fun found =>
        (complete found fields).toOption.bind fun all => (finish (.object all)).toOption := by
  rw [readAs, toOption_bind, Option.bind_map]
  refine congrArg _ (funext fun r => ?_)
  obtain ⟨found, after⟩ := r
  dsimp only [Function.comp]
  cases complete found fields with
  | error cause => rfl
  | ok all =>
    dsimp only [Except.toOption, Option.bind_some]
    cases finish (.object all) <;> rfl

theorem toOption_readAs_list_tagged {item : Document} {settled : Option Mark} :
    (readAs src (.tagged name tag variants) (.list before (.cons item settled items))).toOption =
      (readTag src (variants.map (·.1)) item).toOption.bind fun v =>
        items.values.toOption.bind fun _ =>
          ((readTuple .buffered ((variants.lookup v).getD ("", [])).1 false
            ((variants.lookup v).getD ("", [])).2.length 0 ((variants.lookup v).getD ("", [])).2
            items).toOption.map (·.1)).map fun found => .object ((tag, .string v) :: found) := by
  rw [readAs, toOption_bind]
  refine congrArg _ (funext fun v => ?_)
  rw [toOption_bind, toOption_mapError]
  refine congrArg _ (funext fun _ => ?_)
  rw [toOption_bind, Option.map_map, Option.map_eq_bind]
  rfl

theorem toOption_readAs_object_tagged :
    (readAs src (.tagged name tag variants) (.object before members)).toOption =
      (findTag src tag (variants.map (·.1)) none members).toOption.bind fun v =>
        ((readFields .buffered (some tag) false ((variants.lookup v).getD ("", [])).2 []
          members).toOption.map (·.1)).bind fun found =>
            (complete found ((variants.lookup v).getD ("", [])).2).toOption.map
              fun all => .object ((tag, .string v) :: all) := by
  rw [readAs, toOption_bind]
  refine congrArg _ (funext fun v => ?_)
  rw [toOption_bind, Option.bind_map]
  refine congrArg _ (funext fun r => ?_)
  obtain ⟨found, after⟩ := r
  dsimp only [Function.comp]
  cases complete found ((variants.lookup v).getD ("", [])).2 <;> rfl

end Compound

/-! ### Normal forms, field by field -/

section Fill

variable {src : Source} {fields : List (String × Presence × Format)}
  {written : String → Option Json} {value value' : String × Presence × Format → Option Json}

/-- What stands for a field that is missing. -/
def Presence.missing : Presence → Option Json
  | .required => none
  | .nullable => some .null
  | .default v => some v

/-- What stands for a field, if what is written for it is in order. -/
def fieldValue (src : Source) (field : Presence × Format) : Option Json → Option Json
  | some j => (readField src field.1 field.2 none (.ofJson j)).toOption
  | none => field.1.missing

/-- The fields of a record, if there is a value for each of them. -/
def fill (value : String × Presence × Format → Option Json) :
    List (String × Presence × Format) → Option (List (String × Json))
  | [] => some []
  | field :: fields => do
    let v ← value field
    return (field.1, v) :: (← fill value fields)

theorem fill_congr (h : ∀ field ∈ fields, value field = value' field) :
    fill value fields = fill value' fields := by
  induction fields with
  | nil => rfl
  | cons field fields ih =>
    obtain ⟨hfield, hfields⟩ := List.forall_mem_cons.1 h
    rw [fill, fill, hfield, ih hfields]

theorem fill_eq_none {field : String × Presence × Format} (hmem : field ∈ fields)
    (h : value field = none) : fill value fields = none := by
  induction fields with
  | nil => cases hmem
  | cons field' fields ih =>
    rw [fill]
    rcases List.mem_cons.1 hmem with rfl | hmem
    · rw [h]
      rfl
    · rw [ih hmem]
      cases value field' <;> rfl

theorem toOption_readFields_field {passed : Option String} {closed : Bool}
    {found : List (String × Json)} {k : String} {afterKey settled : Option Mark} {d : Document}
    {rest : Members} {presence : Presence} {f : Format} (hpassed : passed ≠ some k)
    (hfield : fields.lookup k = some (presence, f)) (hfound : (found.lookup k).isSome = false) :
    (readFields src passed closed fields found (.cons k afterKey d settled rest)).toOption.map
        (·.1) =
      (readField src presence f settled d).toOption.bind fun v =>
        (readFields src passed closed fields ((k, v) :: found) rest).toOption.map (·.1) := by
  rw [readFields_field hpassed hfield hfound]
  cases readField src presence f settled d <;> rfl

theorem toOption_complete {found : List (String × Json)} :
    (complete found fields).toOption =
      fill (fun field => (found.lookup field.1).or field.2.1.missing) fields := by
  induction fields with
  | nil => rfl
  | cons field fields ih =>
    obtain ⟨name, presence, f⟩ := field
    unfold complete
    rw [fill, ← ih]
    cases found.lookup name with
    | some v => cases complete found fields <;> rfl
    | none => cases presence <;> cases complete found fields <;> rfl

/-- What is read of the members makes up the fields, those that were found before in front. -/
theorem toOption_readFields {passed : Option String} {found ms : List (String × Json)}
    (hkeys : ((found ++ ms).map (·.1)).Nodup) (hnames : (fields.map (·.1)).Nodup)
    (hpassed : ∀ k, passed = some k → k ∉ fields.map (·.1)) :
    (readFields src passed false fields found (Members.ofJson ms)).toOption.bind
        (fun r => (complete r.1 fields).toOption) =
      fill (fun field => (found.lookup field.1).or (fieldValue src field.2 (ms.lookup field.1)))
        fields := by
  induction ms generalizing found with
  | nil =>
    rw [Members.ofJson, readFields]
    exact toOption_complete
  | cons m ms ih =>
    obtain ⟨k, j⟩ := m
    have hkeys' : (((k, j) :: found ++ ms).map (·.1)).Nodup :=
      (List.perm_middle.map _).nodup_iff.1 hkeys
    have hrest : ((found ++ ms).map (·.1)).Nodup := (List.nodup_cons.1 hkeys').2
    cases hk : known passed fields k with
    | false =>
      rw [Members.ofJson, readFields_unknown hk, ih hrest]
      -- the key is no field, so that none is looked up under it
      refine fill_congr fun field hfield => ?_
      have hmem : field.1 ∈ fields.map (·.1) := List.mem_map_of_mem hfield
      have hne : (field.1 == k) = false := by
        refine beq_false_of_ne fun heq => ?_
        rw [heq] at hmem
        simp only [known, Bool.and_eq_false_iff, decide_eq_false_iff_not, not_not,
          Option.isSome_eq_false_iff, Option.isNone_iff_eq_none, List.lookup_eq_none_iff] at hk
        rcases hk with hk | hk
        · exact hpassed k hk hmem
        · exact bne_iff_ne.1 (hk field hfield) heq.symm
      rw [List.lookup_cons, hne]
    | true =>
      obtain ⟨hnot, hfield⟩ : passed ≠ some k ∧ (fields.lookup k).isSome = true := by
        simpa [known] using hk
      obtain ⟨⟨presence, f⟩, hfield⟩ := Option.isSome_iff_exists.1 hfield
      have hmem : (k, presence, f) ∈ fields := mem_of_lookup hfield
      have hfound : found.lookup k = none := by
        rw [List.lookup_eq_none_iff]
        intro p hp
        refine bne_iff_ne.2 fun heq => (List.nodup_cons.1 hkeys').1 ?_
        exact List.mem_map.2 ⟨p, List.mem_append_left ms hp, heq.symm⟩
      rw [Members.ofJson, readFields_field hnot hfield (by rw [hfound]; rfl)]
      cases hread : readField src presence f none (Document.ofJson j) with
      | error e =>
        refine (fill_eq_none hmem ?_).symm
        rw [hfound, List.lookup_cons_self, Option.none_or, fieldValue, hread]
        rfl
      | ok v =>
        have hrest : ((((k, v) :: found) ++ ms).map (·.1)).Nodup := hkeys'
        refine (ih hrest).trans (fill_congr fun field' hfield' => ?_)
        rw [List.lookup_cons, List.lookup_cons]
        by_cases heq : field'.1 = k
        · obtain ⟨k', field'⟩ := field'
          obtain rfl : k' = k := heq
          obtain rfl : field' = (presence, f) :=
            Option.some.inj ((lookup_of_mem hnames hfield').symm.trans hfield)
          rw [beq_self_eq_true, hfound]
          simp only [Option.none_or, Option.some_or, fieldValue, hread]
          rfl
        · rw [beq_false_of_ne heq]

theorem toOption_readTag {variants : List String} (j : Json) :
    (readTag src variants (Document.ofJson j)).toOption =
      j.text?.bind fun s => if variants.contains s then some s else none := by
  cases j with
  | string s =>
    rw [Document.ofJson, readTag, text?, Option.bind_some]
    split <;> rfl
  | _ => rfl

/-- **The normal form of a tagged object**, field by field. -/
theorem Format.ofValue_tagged {name tag : String} {ms : List (String × Json)}
    {variants : List (String × String × List (String × Presence × Format))}
    (hms : KeyOrdered ms) (hvariants : ∀ v ∈ variants, (v.2.2.map (·.1)).Nodup ∧
      tag ∉ v.2.2.map (·.1)) :
    ((Format.tagged name tag variants).ofValue (.object ms)).toOption = do
      let kind ← (ms.lookup tag).bind text?
      let variant ← variants.lookup kind
      let all ← fill (fun field => fieldValue .buffered field.2 (ms.lookup field.1)) variant.2
      return .object ((tag, .string kind) :: all) := by
  unfold Format.ofValue
  rw [Document.ofJson, toOption_readAs_object_tagged, findTag_ofJson (nodup_keys hms)]
  cases ms.lookup tag with
  | none => rfl
  | some v =>
    simp only [toOption_readTag, Option.bind_some]
    cases v.text? with
    | none => rfl
    | some kind =>
      simp only [Option.bind_eq_bind, Option.bind_some]
      cases hkind : variants.lookup kind with
      | none =>
        have hnot : kind ∉ variants.map (·.1) := by
          intro hmem
          obtain ⟨v, hv, rfl⟩ := List.mem_map.1 hmem
          exact bne_iff_ne.1 (List.lookup_eq_none_iff.1 hkind v hv) rfl
        rw [if_neg (mt List.contains_iff_mem.1 hnot)]
        rfl
      | some variant =>
        obtain ⟨expected, fields⟩ := variant
        have hmem : (kind, expected, fields) ∈ variants := mem_of_lookup hkind
        obtain ⟨hnames, htag⟩ := hvariants _ hmem
        have hread : (readFields .buffered (some tag) false fields []
            (Members.ofJson ms)).toOption.bind (fun r => (complete r.1 fields).toOption) =
            fill (fun field => fieldValue .buffered field.2 (ms.lookup field.1)) fields :=
          toOption_readFields (nodup_keys hms) hnames fun k hk => Option.some.inj hk ▸ htag
        rw [if_pos (List.contains_iff_mem.2 (List.mem_map_of_mem hmem)), Option.bind_some,
          Option.bind_some, hkind, Option.getD_some, ← hread]
        cases (readFields .buffered (some tag) false fields [] (Members.ofJson ms)).toOption with
        | none => rfl
        | some r => exact Option.map_eq_bind ..

/-- What is written for each field: an object has it under its name, an array at its place. -/
def fieldsOf? (names : List String) : Json → Option (String → Option Json)
  | .object ms => some fun k => ms.lookup k
  | .array xs => if xs.length ≤ names.length then some fun k => (names.zip xs).lookup k else none
  | _ => none

section Tuple

variable {expected : String} {closed : Bool} {total : Nat}

theorem readTuple_cons {index : Nat} {name : String} {presence : Presence} {f : Format}
    {settled : Option Mark} {d : Document} {items : Items} :
    readTuple src expected closed total index ((name, presence, f) :: fields)
        (.cons d settled items) =
      (readField src presence f settled d).bind fun v =>
        (readTuple src expected closed total (index + 1) fields items).bind fun r =>
          .ok ((name, v) :: r.1, r.2) := by
  conv_lhs => unfold readTuple
  cases presence with
  | nullable =>
    cases d with
    | scalar v place => cases v <;> rfl
    | _ => rfl
  | _ => rfl

theorem toOption_readTuple_cons {index : Nat} {name : String} {presence : Presence} {f : Format}
    {settled : Option Mark} {d : Document} {items : Items} :
    (readTuple src expected closed total index ((name, presence, f) :: fields)
        (.cons d settled items)).toOption.map (·.1) =
      (readField src presence f settled d).toOption.bind fun v =>
        ((readTuple src expected closed total (index + 1) fields items).toOption.map (·.1)).map
          ((name, v) :: ·) := by
  rw [readTuple_cons]
  cases readField src presence f settled d with
  | error e => rfl
  | ok v =>
    simp only [Except.bind]
    cases readTuple src expected closed total (index + 1) fields items <;> rfl

/-- The items of an array are the fields in their order. -/
theorem toOption_readTuple {index : Nat} {xs : List Json} (hnames : (fields.map (·.1)).Nodup)
    (hlength : xs.length ≤ fields.length) :
    (readTuple src expected closed total index fields (Items.ofJson xs)).toOption.map (·.1) =
      fill (fun field => fieldValue src field.2 (((fields.map (·.1)).zip xs).lookup field.1))
        fields := by
  induction fields generalizing xs index with
  | nil =>
    obtain rfl := List.length_eq_zero_iff.1 (Nat.le_zero.1 hlength)
    rfl
  | cons field fields ih =>
    obtain ⟨name, presence, f⟩ := field
    obtain ⟨hname, hnames⟩ := List.nodup_cons.1 hnames
    cases xs with
    | nil =>
      have hcomplete : (complete [] ((name, presence, f) :: fields)).toOption =
          fill (fun field => field.2.1.missing) ((name, presence, f) :: fields) :=
        toOption_complete
      rw [Items.ofJson]
      unfold readTuple
      simp only [List.zip_nil_right, List.lookup_nil, fieldValue, ← hcomplete]
      cases complete [] ((name, presence, f) :: fields) <;> rfl
    | cons x xs =>
      have htail : fill (fun field => fieldValue src field.2
            (((name, x) :: (fields.map (·.1)).zip xs).lookup field.1)) fields =
          (readTuple src expected closed total (index + 1) fields
            (Items.ofJson xs)).toOption.map (·.1) := by
        rw [ih hnames (Nat.le_of_succ_le_succ hlength)]
        refine fill_congr fun field hmem => ?_
        have hne : (field.1 == name) = false :=
          beq_false_of_ne fun heq => hname (List.mem_map.2 ⟨field, hmem, heq⟩)
        rw [List.lookup_cons, hne]
      rw [Items.ofJson, toOption_readTuple_cons, fill, List.map_cons, List.zip_cons_cons,
        List.lookup_cons_self, htail, fieldValue]
      cases (readField src presence f none (Document.ofJson x)).toOption with
      | none => rfl
      | some v =>
        cases (readTuple src expected closed total (index + 1) fields
          (Items.ofJson xs)).toOption <;> rfl

theorem toOption_readTuple_excess {index : Nat} {xs : List Json}
    (hlength : fields.length < xs.length) :
    (readTuple src expected closed total index fields (Items.ofJson xs)).toOption.map (·.1) =
      none := by
  induction fields generalizing xs index with
  | nil =>
    cases xs with
    | nil => cases hlength
    | cons x xs => rfl
  | cons field fields ih =>
    obtain ⟨name, presence, f⟩ := field
    cases xs with
    | nil => cases hlength
    | cons x xs =>
      rw [Items.ofJson, toOption_readTuple_cons, ih (Nat.lt_of_succ_lt_succ hlength)]
      cases (readField src presence f none (Document.ofJson x)).toOption <;> rfl

end Tuple

/-- In an object none of the names is written twice. -/
def Once (names : List String) : Json → Prop
  | .object ms => ((ms.map (·.1)).filter fun k => names.contains k).Nodup
  | _ => True

theorem Ordered.once {names : List String} {j : Json} (h : j.Ordered) : j.Once names := by
  cases j with
  | object ms => exact (nodup_keys h.1).sublist List.filter_sublist
  | _ => trivial

theorem known_none (k : String) : known none fields k = (fields.map (·.1)).contains k := by
  rw [Bool.eq_iff_iff, List.contains_iff_mem, known]
  simp [List.lookup_isSome_iff]

theorem once_iff {ms : List (String × Json)} : (Json.object ms).Once (fields.map (·.1)) ↔
    ((ms.filter fun m => known none fields m.1).map (·.1)).Nodup := by
  rw [Once, List.filter_map]
  simp only [known_none]
  rfl

theorem toOption_readFields_once {ms : List (String × Json)} (hnames : (fields.map (·.1)).Nodup)
    (honce : (Json.object ms).Once (fields.map (·.1))) :
    (readFields src none false fields [] (Members.ofJson ms)).toOption.bind
        (fun r => (complete r.1 fields).toOption) =
      fill (fun field => fieldValue src field.2 (ms.lookup field.1)) fields := by
  let written := ms.filter fun m => known none fields m.1
  have hread : (readFields src none false fields [] (Members.ofJson written)).toOption.bind
        (fun r => (complete r.1 fields).toOption) =
      fill (fun field => fieldValue src field.2 (written.lookup field.1)) fields :=
    toOption_readFields (once_iff.1 honce) hnames fun k hk => by cases hk
  rw [readFields_known]
  refine hread.trans (fill_congr fun field hfield => ?_)
  have hknown : known none fields field.1 = true := by
    rw [known_none]
    exact List.contains_iff_mem.2 (List.mem_map_of_mem hfield)
  rw [lookup_filter (p := known none fields), if_pos hknown]

/-- A field that is written twice is refused. -/
theorem toOption_readFields_repeated {found ms : List (String × Json)}
    (hknown : ∀ m ∈ ms, known none fields m.1 = true) (hfound : (found.map (·.1)).Nodup)
    (hrepeated : ¬ ((found ++ ms).map (·.1)).Nodup) :
    (readFields src none false fields found (Members.ofJson ms)).toOption.map (·.1) = none := by
  induction ms generalizing found with
  | nil => exact absurd (by rwa [List.append_nil]) hrepeated
  | cons m ms ih =>
    obtain ⟨k, j⟩ := m
    obtain ⟨hk, hrest⟩ := List.forall_mem_cons.1 hknown
    obtain ⟨hnot, hfield⟩ : none ≠ some k ∧ (fields.lookup k).isSome = true := by
      simpa [known] using hk
    obtain ⟨⟨presence, f⟩, hfield⟩ := Option.isSome_iff_exists.1 hfield
    rw [Members.ofJson]
    cases hseen : (found.lookup k).isSome with
    | true =>
      rw [readFields, if_neg hnot, hfield]
      simp only [hseen, if_true]
      rfl
    | false =>
      have hnew : k ∉ found.map (·.1) := fun hmem => by
        obtain ⟨p, hp, rfl⟩ := List.mem_map.1 hmem
        have hsome := List.lookup_isSome_iff.2 ⟨p, hp, beq_self_eq_true p.1⟩
        rw [hseen] at hsome
        cases hsome
      have hrepeated' (v : Json) : ¬ (((k, v) :: found ++ ms).map (·.1)).Nodup :=
        fun h => hrepeated ((List.perm_middle.map _).nodup_iff.2 h)
      rw [toOption_readFields_field hnot hfield hseen]
      cases (readField src presence f none (Document.ofJson j)).toOption with
      | none => rfl
      | some v => exact ih hrest (List.nodup_cons.2 ⟨hnew, hfound⟩) (hrepeated' v)

/-- **The normal form of a record that may have other fields**, field by field. -/
theorem toOption_readAs_open {name : String} {j : Json} (hnames : (fields.map (·.1)).Nodup)
    (honce : j.Once (fields.map (·.1))) :
    (readAs src (.open_ name fields) (.ofJson j)).toOption = do
      let written ← fieldsOf? (fields.map (·.1)) j
      let all ← fill (fun field => fieldValue src field.2 (written field.1)) fields
      return .object all := by
  unfold Format.open_
  cases j with
  | array xs =>
    rw [Document.ofJson, toOption_readAs_list_record, fieldsOf?, List.length_map]
    by_cases hlength : xs.length ≤ fields.length
    · rw [if_pos hlength, toOption_readTuple hnames hlength]
      rfl
    · rw [if_neg hlength, toOption_readTuple_excess (Nat.lt_of_not_le hlength)]
      rfl
  | object ms =>
    rw [Document.ofJson, toOption_readAs_object_record, fieldsOf?, Option.bind_eq_bind,
      Option.bind_some, ← toOption_readFields_once hnames honce]
    cases (readFields src none false fields [] (Members.ofJson ms)).toOption <;> rfl
  | _ => rfl

/-- **An object in which a field is written twice is no record.** -/
theorem toOption_readAs_open_repeated {name : String} {j : Json}
    (hrepeated : ¬ j.Once (fields.map (·.1))) :
    (readAs src (.open_ name fields) (.ofJson j)).toOption = none := by
  unfold Format.open_
  cases j with
  | object ms =>
    let written := ms.filter fun m => known none fields m.1
    have hread : (readFields src none false fields [] (Members.ofJson written)).toOption.map
        (·.1) = none :=
      toOption_readFields_repeated (fun m hm => (List.mem_filter.1 hm).2) List.nodup_nil
        (mt once_iff.2 hrepeated)
    rw [Document.ofJson, toOption_readAs_object_record, readFields_known, hread]
    rfl
  | _ => exact absurd trivial hrepeated

theorem Format.ofValue_open {name : String} {j : Json} (hj : j.Ordered)
    (hnames : (fields.map (·.1)).Nodup) :
    ((Format.open_ name fields).ofValue j).toOption = do
      let written ← fieldsOf? (fields.map (·.1)) j
      let all ← fill (fun field => fieldValue .value field.2 (written field.1)) fields
      return .object all := toOption_readAs_open hnames hj.once

/-! ### Fields of one kind -/

theorem toOption_anchor {α : Type} {m : Option Mark} {x : Except Refusal α} :
    (anchor m x).toOption = x.toOption := by
  rcases x with ⟨cause, _ | m'⟩ | b <;> rfl

theorem fieldValue_required {f : Format} (j : Json) :
    fieldValue src (.required, f) (some j) = (readAs src f (.ofJson j)).toOption :=
  toOption_anchor

theorem fieldValue_default {f : Format} {v : Json} (j : Json) :
    fieldValue src (.default v, f) (some j) = (readAs src f (.ofJson j)).toOption :=
  toOption_anchor

theorem fieldValue_text (w : Option Json) :
    fieldValue src (.required, .string) w = (w.bind text?).map .string := by
  cases w with
  | none => rfl
  | some j =>
    rw [fieldValue_required]
    cases j <;> rfl

theorem toOption_readEach (xs : List Json) :
    (readEach src .string (Items.ofJson xs)).toOption = (xs.mapM text?).map (·.map .string) := by
  induction xs with
  | nil => rfl
  | cons x xs ih =>
    rw [Items.ofJson, readEach, toOption_bind, toOption_anchor, List.mapM_cons]
    cases x with
    | string s =>
      simp only [toOption_bind, ih]
      cases xs.mapM text? <;> rfl
    | _ => rfl

theorem toOption_readAs_strings (j : Json) :
    (readAs src (.list .string) (.ofJson j)).toOption = j.texts?.map .strings := by
  cases j with
  | array xs =>
    rw [Document.ofJson, readAs, toOption_bind, toOption_readEach, texts?]
    cases xs.mapM text? <;> rfl
  | _ => rfl

theorem fieldValue_texts (w : Option Json) :
    fieldValue src (.required, .list .string) w = (w.bind texts?).map .strings := by
  cases w with
  | none => rfl
  | some j => exact (fieldValue_required j).trans (toOption_readAs_strings j)

/-- A list that may be left out is empty then. -/
theorem fieldValue_texts_default (w : Option Json) :
    fieldValue src (.default (.array []), .list .string) w =
      ((w.map texts?).getD (some [])).map .strings := by
  cases w with
  | none => rfl
  | some j => exact (fieldValue_default j).trans (toOption_readAs_strings j)

theorem fieldValue_any {w : Option Json} (h : ∀ j, w = some j → j.Ordered) :
    fieldValue src (.default .null, .any) w = some (w.getD .null) := by
  cases w with
  | none => rfl
  | some j =>
    rw [fieldValue_default, readAs_any, Document.value_ofJson_mapError,
      sorted_of_ordered j (h j rfl)]
    rfl

end Fill

end Json

end Conductor

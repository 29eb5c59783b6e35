import Conductor.Proofs.Json.Equality
import Conductor.Proofs.Keyed
import Conductor.Proofs.Schema.Check
import Conductor.Tool.Parameter

/-!
# Arguments that are admitted

A tool declares its parameters. What the declaration asks of the arguments of a call is said here
without a schema, and the schema that is made of the declaration asks just that.

* `Kind.Holds`, `Parameter.Allows`, `Parameter.Admits` : a value is of a kind, may be given for a
  parameter, and is what a tool may be called with;
* `Parameter.violationsOf_inputSchema` : **the schema of the arguments accepts what is admitted;**
* `Parameter.lacks_missingRequired` : **what is missing are the required parameters that are absent
  or `null`**, and then nothing is admitted;
* `Parameter.fills_applyDefaults` : **defaults stand where nothing is given, and nowhere else;**
* `Parameter.missing_eq_of_same` : equal arguments lack the same.
-/

namespace Conductor

open Json

/-! ### Kinds -/

namespace Binary.Finite

theorem ratio_den_ne_zero (x : Finite) : x.ratio.2 ≠ 0 := by
  unfold ratio
  split
  · exact Nat.one_ne_zero
  · exact Nat.ne_of_gt (Nat.pow_pos Nat.zero_lt_two)

/-- A number without a remainder is an integer. -/
theorem isIntegral_iff (x : Finite) : x.isIntegral = true ↔ ∃ z : Int, x.toRat = z := by
  have hvalue (z : Int) : x.toRat = z ↔
      (if x.negative then -(x.ratio.1 : Int) else x.ratio.1) = z * x.ratio.2 := by
    unfold toRat
    rw [← Rat.mkRat_one, Rat.mkRat_eq_iff x.ratio_den_ne_zero Nat.one_ne_zero, Int.natCast_one,
      Int.mul_one]
  rw [isIntegral, beq_iff_eq, ← Nat.dvd_iff_mod_eq_zero, ← Int.natCast_dvd_natCast]
  simp only [hvalue]
  constructor
  · rintro ⟨k, hk⟩
    refine ⟨if x.negative then -k else k, ?_⟩
    rw [hk, Int.mul_comm]
    split
    · rw [Int.neg_mul]
    · rfl
  · rintro ⟨z, hz⟩
    have hdvd : (x.ratio.2 : Int) ∣ if x.negative then -(x.ratio.1 : Int) else x.ratio.1 :=
      ⟨z, hz.trans (Int.mul_comm ..)⟩
    split at hdvd
    · exact Int.dvd_neg.1 hdvd
    · exact hdvd

end Binary.Finite

theorem Number.isIntegral_iff (n : Number) : n.isIntegral = true ↔ ∃ z : Int, n.toRat = z := by
  cases n with
  | int z => exact ⟨fun _ => ⟨z, rfl⟩, fun _ => rfl⟩
  | float x => exact x.isIntegral_iff

namespace Kind

/-- A value is of a kind. A number is an integer by its value, however it is written. -/
def Holds : Kind → Json → Prop
  | .string, v => ∃ s, v = .string s
  | .integer, v => ∃ (n : Number) (z : Int), v = .number n ∧ n.toRat = z
  | .number, v => ∃ n, v = .number n
  | .boolean, v => ∃ b, v = .bool b
  | .array, v => ∃ xs, v = .array xs
  | .object, v => ∃ ms, v = .object ms

/-- The type of the values of a kind. -/
def jsonType : Kind → JsonType
  | .string => .string
  | .integer => .integer
  | .number => .number
  | .boolean => .boolean
  | .array => .array
  | .object => .object

theorem ofName?_name (k : Kind) : JsonType.ofName? k.name = some k.jsonType := by cases k <;> rfl

theorem holds_jsonType {k : Kind} {v : Json} : k.jsonType.holds v = true ↔ k.Holds v := by
  cases k <;> cases v <;> simp [jsonType, JsonType.holds, Holds, Number.isIntegral_iff]

theorem not_holds_null (k : Kind) : ¬ k.Holds .null := by cases k <;> simp [Holds]

theorem eq_array_of_holds {k : Kind} {xs : List Json} (h : k.Holds (.array xs)) : k = .array := by
  cases k <;> simp [Holds] at h ⊢

end Kind

namespace Parameter

/-! ### Values of a parameter -/

/-- A value may be given for a parameter: it is of its kind, one of the values that are allowed, if
they are listed, and a list of values of the kind of its items, if that is declared. -/
structure Allows (p : Parameter) (v : Json) : Prop where
  kind : p.kind.Holds v
  allowed : ∀ vs, p.allowedValues = some vs → ∃ w ∈ vs, w.alike v = true
  items : ∀ t, p.itemType = some t → ∀ xs, v = .array xs → ∀ x ∈ xs, t.Holds x

/-- The kind of the items, of a parameter that is a list. -/
def itemKind? (p : Parameter) : Option Kind := if p.kind = .array then p.itemType else none

/-- The rules about the values of a parameter. -/
def valueRules (p : Parameter) : List Rule :=
  (p.allowedValues.map Rule.enum).toList ++
    (p.itemKind?.map fun t => .items (.rules [.type [t.jsonType]])).toList ++
    [.type [p.kind.jsonType]]

theorem itemsMember_eq (p : Parameter) : p.itemsMember =
    (p.itemKind?.map fun t => ("items", .object [("type", .string t.name)])).toList := by
  obtain ⟨name, kind, required, description, allowed, default, item⟩ := p
  cases kind <;> cases item <;> rfl

theorem ofJson_valueSchema (p : Parameter) : Schema.ofJson p.valueSchema = .rules p.valueRules := by
  rw [valueSchema, itemsMember_eq, valueRules]
  -- each of three members may be left out
  cases p.default <;> cases p.allowedValues <;> cases p.itemKind? <;>
    simp [Schema.ofJson, Schema.partsOf, Schema.ruleOf?, Schema.itemsRule?, Schema.typesOf,
      Kind.ofName?_name, items?, text?]

theorem flaw?_valueSchema (p : Parameter) : Schema.flaw? p.valueSchema = none := by
  rw [valueSchema, itemsMember_eq]
  have hlist (vs : List Json) : Schema.typeFlaw? [.array] (.array vs) = none := rfl
  cases p.default <;> cases p.allowedValues <;> cases p.itemKind? <;>
    simp [Schema.flaw?, Schema.innerFlaw?, Schema.keywordFlaw?, Schema.annotationFlaw?,
      Schema.typesFlaw?, Schema.isTypeName, Kind.ofName?_name, text?, hlist]

/-- **The rules about a parameter are kept by what may be given for it.** -/
theorem check_valueSchema {p : Parameter} {path : Path} {v : Json} :
    (Schema.ofJson p.valueSchema).check path v = [] ↔ p.Allows v := by
  have hitem {t : Kind} (path : Path) (x : Json) :
      (Schema.rules [.type [t.jsonType]]).check path x = [] ↔ t.Holds x := by
    rw [Schema.check, Schema.checkAll_eq_nil, List.forall_mem_singleton, Rule.check_type_eq_nil,
      Kind.holds_jsonType]
  rw [ofJson_valueSchema, Schema.check, Schema.checkAll_eq_nil, valueRules, List.forall_mem_append,
    List.forall_mem_append, List.forall_mem_singleton, Rule.check_type_eq_nil, Kind.holds_jsonType]
  simp only [Option.mem_toList, Option.map_eq_some_iff, forall_exists_index, and_imp,
    forall_apply_eq_imp_iff₂, Rule.check_enum_eq_nil, Rule.check_items_eq_nil hitem]
  constructor
  · rintro ⟨⟨hallowed, hitems⟩, hkind⟩
    refine ⟨hkind, hallowed, ?_⟩
    rintro t ht xs rfl
    have hitem : p.itemKind? = some t := by
      rw [itemKind?, if_pos (Kind.eq_array_of_holds hkind), ht]
    exact hitems t hitem xs rfl
  · rintro ⟨hkind, hallowed, hitems⟩
    refine ⟨⟨hallowed, fun t ht => hitems t ?_⟩, hkind⟩
    unfold itemKind? at ht
    split at ht
    · exact ht
    · cases ht

/-! ### Arguments -/

/-- A tool with these parameters may be called with the value: it is an object that has every
required parameter, and whatever it has for a parameter may be given for it. -/
structure Admits (ps : List Parameter) (a : Json) : Prop where
  isObject : a.isObject = true
  required : ∀ p ∈ ps, p.required = true → (a.get? p.name).isSome = true
  present : ∀ p ∈ ps, ∀ v, a.get? p.name = some v → p.Allows v

variable {ps : List Parameter} {a : Json}

theorem names_valueSchemas (ps : List Parameter) :
    (ps.map fun p => (p.name, p.valueSchema)).map (·.1) = ps.map (·.name) := by
  rw [List.map_map]
  rfl

/-- What the properties of the schema declare. -/
def declared (ps : List Parameter) : List (String × Json) :=
  (Keyed.ofList (ps.map fun p => (p.name, p.valueSchema))).entries

/-- The names of the required parameters. -/
def requiredNames (ps : List Parameter) : List String := (ps.filter (·.required)).map (·.name)

theorem inputSchema_eq (ps : List Parameter) : inputSchema ps = .object
    [("properties", .object (declared ps)), ("required", .strings (requiredNames ps)),
      ("type", .string "object")] := rfl

theorem mem_declared {d : String × Json} (h : d ∈ declared ps) :
    ∃ p ∈ ps, d = (p.name, p.valueSchema) := by
  obtain ⟨p, hp, rfl⟩ := List.mem_map.1 (Keyed.mem_of_mem_ofList h)
  exact ⟨p, hp, rfl⟩

theorem mem_declared_of_mem (hnames : (ps.map (·.name)).Nodup) {p : Parameter} (h : p ∈ ps) :
    (p.name, p.valueSchema) ∈ declared ps := by
  rw [← names_valueSchemas] at hnames
  exact Keyed.mem_ofList hnames (List.mem_map_of_mem h)

theorem ofJson_inputSchema (ps : List Parameter) : Schema.ofJson (inputSchema ps) = .rules
    [.properties ((declared ps).map fun m => (m.1, Schema.ofJson m.2)),
      .required (requiredNames ps), .type [.object]] := by
  let parts : Schema.Parts := ⟨none, none, some (Schema.schemasOf (declared ps))⟩
  have hparts : Schema.partsOf [("properties", .object (declared ps)),
      ("required", .strings (requiredNames ps)), ("type", .string "object")] = parts := rfl
  have hproperties (v : Json) : Schema.ruleOf? parts "properties" v =
      some (.properties ((declared ps).map fun m => (m.1, Schema.ofJson m.2))) := by
    rw [← Schema.schemasOf_eq]
    rfl
  have htype : Schema.ruleOf? parts "type" (.string "object") = some (.type [.object]) := rfl
  rw [inputSchema_eq]
  simp only [Schema.ofJson, hparts, List.filterMap_cons, List.filterMap_nil, hproperties,
    Schema.ruleOf?_required, htype]

/-- What is required are different names, as those of all parameters are. -/
theorem flaw?_inputSchema (hnames : (ps.map (·.name)).Nodup) :
    Schema.flaw? (inputSchema ps) = none := by
  have hrequired : Schema.namesFlaw? (.strings (requiredNames ps)) = none :=
    Schema.namesFlaw?_strings (hnames.sublist (List.filter_sublist.map _))
  have hdeclared : Schema.memberFlaw? (declared ps) = none := by
    refine Schema.memberFlaw?_eq_none fun m hm => ?_
    obtain ⟨p, -, rfl⟩ := mem_declared hm
    exact p.flaw?_valueSchema
  have hobject : Schema.typesFlaw? (.string "object") = none := rfl
  rw [inputSchema_eq]
  simp [Schema.flaw?, Schema.innerFlaw?, Schema.tableFlaw?, Schema.keywordFlaw?,
    Schema.annotationFlaw?, hdeclared, hrequired, hobject]

/-- **The schema of the arguments accepts just what is admitted.** -/
theorem violationsOf_inputSchema (hnames : (ps.map (·.name)).Nodup) :
    (inputSchema ps).violationsOf a = [] ↔ Admits ps a := by
  rw [violationsOf_eq_nil (flaw?_inputSchema hnames), ofJson_inputSchema, Schema.check,
    Schema.checkAll_eq_nil, List.forall_mem_cons, List.forall_mem_cons, List.forall_mem_singleton,
    Rule.check_properties_eq_nil, Rule.check_required_eq_nil, Rule.check_type_eq_nil]
  cases a with
  | object ms =>
    constructor
    · rintro ⟨hproperties, hrequired, -⟩
      refine ⟨rfl, fun p hp hreq => ?_, fun p hp v hv => ?_⟩
      · exact hrequired ms rfl p.name (List.mem_map_of_mem (List.mem_filter.2 ⟨hp, hreq⟩))
      · exact check_valueSchema.1 (hproperties ms rfl _
          (List.mem_map_of_mem (mem_declared_of_mem hnames hp)) v hv)
    · rintro ⟨-, hrequired, hpresent⟩
      refine ⟨?_, ?_, rfl⟩
      · rintro _ ⟨⟩ d hd v hv
        obtain ⟨m, hm, rfl⟩ := List.mem_map.1 hd
        obtain ⟨p, hp, rfl⟩ := mem_declared hm
        exact check_valueSchema.2 (hpresent p hp v hv)
      · rintro _ ⟨⟩ k hk
        obtain ⟨p, hp, rfl⟩ := List.mem_map.1 hk
        obtain ⟨hp, hreq⟩ := List.mem_filter.1 hp
        exact hrequired p hp hreq
  | _ =>
    exact ⟨fun h => absurd h.2.2 Bool.false_ne_true,
      fun h => absurd h.isObject Bool.false_ne_true⟩

/-! ### Missing parameters -/

theorem mem_missingRequired {k : String} : k ∈ missingRequired ps a ↔
    ∃ p ∈ ps, p.name = k ∧ p.required = true ∧ (a.get? k = none ∨ a.get? k = some .null) := by
  simp only [missingRequired, List.mem_map, List.mem_filter]
  constructor
  · rintro ⟨p, ⟨⟨hp, hreq⟩, hlacks⟩, rfl⟩
    refine ⟨p, hp, rfl, hreq, ?_⟩
    split at hlacks
    · exact .inl ‹_›
    · exact .inr ‹_›
    · cases hlacks
  · rintro ⟨p, hp, rfl, hreq, hlacks⟩
    refine ⟨p, ⟨⟨hp, hreq⟩, ?_⟩, rfl⟩
    rcases hlacks with h | h <;> rw [h]

/-- The names are those of the required parameters that are absent or `null`, in the order in which
they are declared. -/
structure Lacks (ps : List Parameter) (a : Json) (names : List String) : Prop where
  inOrder : names.Sublist (ps.map (·.name))
  exactly : ∀ k, k ∈ names ↔
    ∃ p ∈ ps, p.name = k ∧ p.required = true ∧ (a.get? k = none ∨ a.get? k = some .null)

theorem lacks_missingRequired (ps : List Parameter) (a : Json) :
    Lacks ps a (missingRequired ps a) where
  inOrder := (List.filter_sublist.trans List.filter_sublist).map _
  exactly _ := mem_missingRequired

/-- Where something is missing nothing is admitted. -/
theorem Admits.missingRequired_eq_nil (h : Admits ps a) : missingRequired ps a = [] := by
  refine List.eq_nil_iff_forall_not_mem.2 fun k hk => ?_
  obtain ⟨p, hp, rfl, hreq, hnone | hnull⟩ := mem_missingRequired.1 hk
  · have hsome := h.required p hp hreq
    rw [hnone] at hsome
    cases hsome
  · exact p.kind.not_holds_null (h.present p hp _ hnull).kind

/-! ### Defaults -/

/-- The default that stands for an absent key. -/
def defaultFor? (ps : List Parameter) (k : String) : Option Json :=
  ps.findSome? fun p => if p.name = k then p.default else none

theorem lookup_withDefault (ms : List (String × Json)) (p : Parameter) (k : String) :
    (withDefault ms p).lookup k = (ms.lookup k).or (if p.name = k then p.default else none) := by
  unfold withDefault
  cases p.default with
  | none => simp
  | some v =>
    by_cases hk : p.name = k
    · subst hk
      cases hm : ms.lookup p.name <;> simp [hm, lookup_insertByKey_self]
    · dsimp only
      rw [if_neg hk, Option.or_none]
      split
      · rfl
      · exact lookup_insertByKey_of_ne (Ne.symm hk)

theorem defaultFor?_cons (p : Parameter) (ps : List Parameter) (k : String) :
    defaultFor? (p :: ps) k = (if p.name = k then p.default else none).or (defaultFor? ps k) := by
  rw [defaultFor?, List.findSome?_cons]
  cases if p.name = k then p.default else none <;> rfl

theorem lookup_foldl_withDefault (ms : List (String × Json)) (k : String) :
    (ps.foldl withDefault ms).lookup k = (ms.lookup k).or (defaultFor? ps k) := by
  induction ps generalizing ms with
  | nil => exact Option.or_none.symm
  | cons p ps ih => rw [List.foldl_cons, ih, lookup_withDefault, defaultFor?_cons, Option.or_assoc]

theorem defaultFor?_eq_some {k : String} {v : Json} (h : defaultFor? ps k = some v) :
    ∃ p ∈ ps, p.name = k ∧ p.default = some v := by
  obtain ⟨p, hp, hv⟩ := List.exists_of_findSome?_eq_some h
  split at hv
  · exact ⟨p, hp, ‹_›, hv⟩
  · cases hv

/-- Of different names each one has its own default. -/
theorem defaultFor?_of_mem (hnames : (ps.map (·.name)).Nodup) {p : Parameter} (hp : p ∈ ps) :
    defaultFor? ps p.name = p.default := by
  induction ps with
  | nil => cases hp
  | cons q ps ih =>
    obtain ⟨hq, hps⟩ := List.nodup_cons.1 hnames
    rw [defaultFor?_cons]
    rcases List.mem_cons.1 hp with rfl | hp
    · have hnone : defaultFor? ps p.name = none := by
        refine Option.eq_none_iff_forall_ne_some.2 fun v hv => ?_
        obtain ⟨q, hmem, hname, -⟩ := defaultFor?_eq_some hv
        exact hq (List.mem_map.2 ⟨q, hmem, hname⟩)
      rw [if_pos rfl, hnone, Option.or_none]
    · have hne : q.name ≠ p.name := fun h => hq (List.mem_map.2 ⟨p, hp, h.symm⟩)
      rw [if_neg hne, ih hps hp, Option.none_or]

theorem get?_applyDefaults {k : String} (h : a.isObject = true ∨ a = .null) :
    (applyDefaults ps a).get? k = (a.get? k).or (defaultFor? ps k) := by
  rcases h with h | rfl
  · cases a with
    | object ms => exact lookup_foldl_withDefault ms k
    | _ => cases h
  · exact lookup_foldl_withDefault [] k

theorem applyDefaults_of_other (h : a.isObject = false) (hnull : a ≠ .null) :
    applyDefaults ps a = a := by
  cases a with
  | object ms => cases h
  | null => exact absurd rfl hnull
  | _ => rfl

/-- The arguments are filled up: what is given is kept, and where nothing is given there stands the
default, if there is one. What is no object and does not stand for one is left alone. -/
structure Fills (ps : List Parameter) (given a : Json) : Prop where
  kept : ∀ k v, given.get? k = some v → a.get? k = some v
  filled : given.isObject = true ∨ given = .null → ∀ p ∈ ps, ∀ v, given.get? p.name = none →
    p.default = some v → a.get? p.name = some v
  onlyDefaults : ∀ k v, given.get? k = none → a.get? k = some v →
    ∃ p ∈ ps, p.name = k ∧ p.default = some v
  other : given.isObject = false → given ≠ .null → a = given

/-- **Defaults stand where nothing is given, and nowhere else.** -/
theorem fills_applyDefaults (hnames : (ps.map (·.name)).Nodup) (given : Json) :
    Fills ps given (applyDefaults ps given) := by
  by_cases h : given.isObject = true ∨ given = .null
  · exact {
      kept := fun k v hv => by rw [get?_applyDefaults h, hv, Option.some_or]
      filled := fun _ p hp v hv hd => by
        rw [get?_applyDefaults h, hv, Option.none_or, defaultFor?_of_mem hnames hp, hd]
      onlyDefaults := fun k v hv hd => by
        rw [get?_applyDefaults h, hv, Option.none_or] at hd
        exact defaultFor?_eq_some hd
      other := applyDefaults_of_other }
  · obtain ⟨hno, hnull⟩ := not_or.1 h
    rw [applyDefaults_of_other (Bool.eq_false_iff.2 hno) hnull]
    exact {
      kept := fun _ _ hv => hv
      filled := fun h' => absurd h' h
      onlyDefaults := fun k v hv hd => by simp [hv] at hd
      other := fun _ _ => rfl }

/-! ### Equal arguments -/

variable (ps) in
/-- The required parameters that are absent or `null` once defaults are filled in. -/
def missing (args : Json) : List String := missingRequired ps (applyDefaults ps args)

theorem missingRequired_eq_of_rel {b : Json}
    (h : ∀ k, Option.Rel (fun v w => v = .null ↔ w = .null) (a.get? k) (b.get? k)) :
    missingRequired ps a = missingRequired ps b := by
  refine congrArg (List.map _) (List.filter_congr fun p _ => ?_)
  -- a member counts as absent if it is `null`
  have hmember := h p.name
  generalize a.get? p.name = v at hmember
  generalize b.get? p.name = w at hmember
  cases hmember with
  | none => rfl
  | @some x y hnull => cases x <;> cases y <;> simp at hnull ⊢

variable (ps) in
/-- **Equal arguments lack the same**, as they get the same defaults. -/
theorem missing_eq_of_same {b : Json} (h : a.same b = true) : missing ps a = missing ps b := by
  have hnull := eq_null_iff_of_agree h
  have hobject := isObject_eq_of_agree h
  refine missingRequired_eq_of_rel fun k => ?_
  have hgiven : Option.Rel (fun v w => v = .null ↔ w = .null) (a.get? k) (b.get? k) := by
    have hmembers := get?_rel h k
    generalize a.get? k = v at hmembers ⊢
    generalize b.get? k = w at hmembers ⊢
    cases hmembers with
    | none => exact .none
    | some hvw => exact .some (eq_null_iff_of_agree hvw)
  by_cases hfilled : a.isObject = true ∨ a = .null
  · rw [get?_applyDefaults hfilled, get?_applyDefaults (hfilled.imp (hobject ▸ ·) hnull.1)]
    generalize a.get? k = v at hgiven
    generalize b.get? k = w at hgiven
    cases hgiven with
    | none => cases defaultFor? ps k with
      | none => exact .none
      | some d => exact .some Iff.rfl
    | some hvw => exact .some hvw
  · obtain ⟨hno, hnotnull⟩ := not_or.1 hfilled
    rw [applyDefaults_of_other (Bool.eq_false_iff.2 hno) hnotnull,
      applyDefaults_of_other (hobject ▸ Bool.eq_false_iff.2 hno) (mt hnull.2 hnotnull)]
    exact hgiven

/-- A value that is no object and not `null` has none of its parameters, and gets no default. -/
theorem default_not_filled :
    ¬ ∀ (ps : List Parameter) (args : Json), (ps.map (·.name)).Nodup → ∀ p ∈ ps, ∀ v,
      args.get? p.name = none → p.default = some v →
      (applyDefaults ps args).get? p.name = some v := by
  intro h
  let limit : Parameter := { optional "limit" .integer with default := some (.nat 10) }
  have hfilled := h [limit] (.nat 5) (List.pairwise_singleton _ _) limit (List.mem_singleton_self _)
    (.nat 10) rfl rfl
  cases hfilled

end Parameter

end Conductor

import Conductor.Proofs.Decision.Said

/-!
# Which part of a reply decides

The first of the four keys that an object has decides alone what is read of it: the key `action`
with the fields of the variant that it names, or what stands under one of the other keys. Whatever
else stands in the object changes neither the decision nor the fault.

* `Decision.decidingKeys`, `Decision.Agree` : the keys that are looked at, and objects that agree on
  them;
* `Decision.ofObject?_congr` : **objects that agree on the deciding keys are read the same;**
* `Decision.first_key_decides` : **so are the replies that carry them; what is wrong under the first
  key is a fault, whatever stands under a later one.**
-/

namespace Conductor

open Json

namespace Decision

/-! ### The keys that decide -/

/-- The fields that stand beside the key `action`, by the variant that it names. -/
def besideAction : String → List String
  | "call_tool" => ["name", "args"]
  | "ask_user" => ["question", "missing_fields"]
  | "replan" => ["subgoals"]
  | "stop" => ["reason"]
  | _ => []

/-- The keys that decide what an object is read as. -/
def decidingKeys (o : Json) : List String :=
  match shape? o with
  | none => []
  | some key =>
    if key = "action" then key :: ((o.part? key text?).map besideAction).getD [] else [key]

/-- The objects have the same first key, and the same values under all keys that decide. -/
structure Agree (o o' : Json) : Prop where
  shape : shape? o' = shape? o
  values : ∀ k ∈ decidingKeys o, o'.get? k = o.get? k

/-- The key `action` and the fields of its variant are all that is looked at. -/
theorem ofAction_congr {ms ms' : List (String × Json)} (h : KeyOrdered ms) (h' : KeyOrdered ms')
    (haction : ms'.lookup "action" = ms.lookup "action")
    (hfields : ∀ kind, ms.lookup "action" = some (.string kind) →
      ∀ k ∈ besideAction kind, ms'.lookup k = ms.lookup k) :
    ofAction (.object ms') = ofAction (.object ms) := by
  have hformat : actionFormat.ofValue (.object ms') = actionFormat.ofValue (.object ms) := by
    refine Format.ofValue_tagged_congr h' h haction fun kind hkind k hk => ?_
    refine hfields kind (haction ▸ hkind) k ?_
    unfold besideAction
    split
    · exact hk
    · exact hk
    · exact hk
    · exact hk
    · next hcall hask hreplan hstop =>
      simp only [List.lookup_cons, List.lookup_nil, beq_false_of_ne hcall, beq_false_of_ne hask,
        beq_false_of_ne hreplan, beq_false_of_ne hstop] at hk
      cases hk
  rw [ofAction, ofAction, readUnder, readUnder, hformat]

/-- **Objects that agree on the deciding keys are read the same.** -/
theorem ofObject?_congr {o o' : Json} (ho : o.isObject = true) (ho' : o'.isObject = true)
    (h : o.Ordered) (h' : o'.Ordered) (hagree : Agree o o') : ofObject? o' = ofObject? o := by
  obtain ⟨hshape, hvalues⟩ := hagree
  rw [ofObject?_eq, ofObject?_eq, hshape]
  cases hkey : shape? o with
  | none => rfl
  | some key =>
    rw [Option.bind_some, Option.bind_some]
    simp only [decidingKeys, hkey] at hvalues
    by_cases haction : key = "action"
    · subst haction
      rw [if_pos rfl] at hvalues
      obtain ⟨haction, hfields⟩ := List.forall_mem_cons.1 hvalues
      cases o with
      | object ms =>
        cases o' with
        | object ms' =>
          refine congrArg some (ofAction_congr h.1 h'.1 haction fun kind hkind k hk => ?_)
          refine hfields k ?_
          have hpart : (Json.object ms).part? "action" text? = some kind :=
            congrArg (Option.bind · text?) hkind
          rw [hpart]
          exact hk
        | _ => cases ho'
      | _ => cases ho
    · rw [if_neg haction] at hvalues
      rw [if_neg haction, if_neg haction, hvalues key (List.mem_singleton_self _)]

/-! ### Replies -/

section Replies

variable {o o' : Json} {s s' : String} {key : String}

theorem parse_follows (ho : o.isObject = true) (h : Carries s o) (hkey : shape? o = some key) :
    Follows key (said o) (parse s) := by
  obtain ⟨r, hr, hfollows⟩ := ofObject?_follows ho h.ordered hkey
  rw [parse_of_carries h ho hr]
  exact hfollows

theorem parse_of_shape?_none (ho : o.isObject = true) (h : Carries s o) (hkey : shape? o = none) :
    parse s = .error (.noShape (Text.stripFence s)) := by
  have hnone : ofObject? o = none := by rw [ofObject?_eq, hkey, Option.bind_none]
  unfold parse
  rw [Carries] at h
  simp only [h, ho, hnone, if_true, Option.getD_none]

theorem parse_congr (ho : o.isObject = true) (ho' : o'.isObject = true) (h : Carries s o)
    (h' : Carries s' o') (hkey : shape? o = some key) (hagree : Agree o o') :
    parse s' = parse s := by
  obtain ⟨r, hr, -⟩ := ofObject?_follows ho h.ordered hkey
  have hr' : ofObject? o' = some r :=
    (ofObject?_congr ho ho' h.ordered h'.ordered hagree).trans hr
  rw [parse_of_carries h ho hr, parse_of_carries h' ho' hr']

/-- A reply that holds a decision carries an object that says it. -/
theorem said_of_parse {d : Decision} (h : parse s = .ok d) :
    ∃ o, o.isObject = true ∧ Carries s o ∧ said o = some (.ok d) := by
  cases hread : Json.parse (Text.stripFence s) with
  | error e =>
    unfold parse at h
    simp only [hread] at h
    cases h
  | ok o =>
    cases ho : o.isObject with
    | false =>
      unfold parse at h
      simp only [hread, ho, Bool.false_eq_true, if_false] at h
      cases h
    | true =>
      refine ⟨o, ho, hread, ?_⟩
      cases hkey : shape? o with
      | none =>
        rw [parse_of_shape?_none ho hread hkey] at h
        cases h
      | some key =>
        have hfollows := parse_follows ho hread hkey
        rw [h] at hfollows
        cases hsaid : said o with
        | none =>
          obtain ⟨cause, hcause⟩ := hsaid ▸ hfollows
          cases hcause
        | some x =>
          rw [hsaid] at hfollows
          exact congrArg some hfollows.symm

/-- A text of an object that opens more brackets than may be opened is no JSON to the reader. -/
theorem parse_nested {before text after : String} (ho : o.isObject = true)
    (hbefore : Text.isBlankText before = true) (hafter : Text.isBlankText after = true)
    (hwritten : Written o text.toList) (hexact : o.Exact) (hdepth : 127 < o.depth) :
    ∃ e, parse (before ++ text ++ after) = .error (.misread e text) := by
  obtain ⟨e, hparse⟩ := Json.parse_nested hexact hwritten hdepth
  cases o with
  | object ms =>
    refine ⟨e, ?_⟩
    unfold parse
    simp only [stripFence_written hbefore hafter hwritten, hparse]
  | _ => cases ho

end Replies

/-- **The first of the four keys decides what a reply is read as.** A reply carries an object when
it is read as that object, as every text of it is that opens at most 127 brackets at once; a text
that opens more is refused, whatever its keys. Replies whose objects agree on the deciding keys are
read the same, and refused the same. What stands under the first key is what is read, and if it has
not the form of its variant, as `null` never has, the reply is refused, whatever stands under the
other keys. An object without these keys is refused. A call that is read names its tool and has
arguments. -/
theorem first_key_decides :
    (∀ (o : Json) (s : String), o.isObject = true → Shows o s → Carries s o) ∧
    (∀ (o : Json) (before text after : String), o.isObject = true →
      Text.isBlankText before = true → Text.isBlankText after = true →
      Written o text.toList → o.Exact → 127 < o.depth →
      ∃ e, parse (before ++ text ++ after) = .error (.misread e text)) ∧
    (∀ (o o' : Json) (s s' key : String), o.isObject = true → o'.isObject = true →
      Carries s o → Carries s' o' → shape? o = some key → Agree o o' → parse s' = parse s) ∧
    (∀ (o : Json) (s key : String), o.isObject = true → Carries s o → shape? o = some key →
      (∀ x, said o = some x → parse s = x) ∧
      (said o = none → ∃ cause, parse s = .error (.malformed key cause)) ∧
      (o.get? key = some .null → ∃ cause, parse s = .error (.malformed key cause))) ∧
    (∀ (o : Json) (s : String), o.isObject = true → Carries s o → shape? o = none →
      parse s = .error (.noShape (Text.stripFence s))) ∧
    (∀ (s : String) (c : Call), parse s = .ok (.callTool c) →
      Text.isBlankText c.name = false ∧ c.args.isNull = false) := by
  refine ⟨fun o s ho h => h.carries ho, ?_, ?_, ?_, ?_, ?_⟩
  · intro o before text after ho hbefore hafter hwritten hexact hdepth
    exact parse_nested ho hbefore hafter hwritten hexact hdepth
  · intro o o' s s' key ho ho' h h' hkey hagree
    exact parse_congr ho ho' h h' hkey hagree
  · intro o s key ho h hkey
    have hfollows := parse_follows ho h hkey
    have hnone (hsaid : said o = none) : ∃ cause, parse s = .error (.malformed key cause) := by
      rw [hsaid] at hfollows
      exact hfollows
    refine ⟨fun x hx => ?_, hnone, fun hnull => hnone (said_null hkey hnull)⟩
    rw [hx] at hfollows
    exact hfollows
  · intro o s ho h hkey
    exact parse_of_shape?_none ho h hkey
  · intro s c h
    obtain ⟨o, -, -, hsaid⟩ := said_of_parse h
    obtain ⟨name, args, hc⟩ := callOf_of_said hsaid
    exact callOf_ok hc

/-- The value in so many brackets. -/
def bracketed : Nat → Json → Json
  | 0, j => j
  | n + 1, j => .array [bracketed n j]

theorem depth_bracketed (n : Nat) (j : Json) : (bracketed n j).depth = n + j.depth := by
  induction n with
  | zero => exact (Nat.zero_add _).symm
  | succ n ih =>
    rw [bracketed, Json.depth, Json.depthItems, Json.depthItems, ih]
    omega

theorem storable_bracketed (n : Nat) {j : Json} (h : j.Storable) : (bracketed n j).Storable := by
  induction n with
  | zero => exact h
  | succ n ih => simpa [bracketed] using ih

/-- A stop with a note beside it. -/
def noted (note : Json) : Json :=
  .object [("action", .string "stop"), ("note", note), ("reason", .string "done")]

theorem storable_noted {note : Json} (h : note.Storable) : (noted note).Storable :=
  .object (show ["action", "note", "reason"].Pairwise (· < ·) by decide) (by simp [h])

theorem depth_noted (note : Json) : (noted note).depth = 1 + note.depth := by
  simp only [noted, Json.depth, Json.depthMembers]
  omega

theorem agree_noted (note note' : Json) : Agree (noted note) (noted note') := by
  refine ⟨rfl, fun k hk => ?_⟩
  have hkeys : decidingKeys (noted note) = ["action", "reason"] := rfl
  rw [hkeys] at hk
  obtain rfl | rfl : k = "action" ∨ k = "reason" := by simpa using hk
  · rfl
  · rfl

/-- A note in 127 brackets opens one too many. -/
def deeplyNoted : Json := noted (bracketed 127 .null)

theorem storable_deeplyNoted : deeplyNoted.Storable :=
  storable_noted (storable_bracketed 127 storable_null)

theorem depth_deeplyNoted : 127 < deeplyNoted.depth := by
  rw [deeplyNoted, depth_noted, depth_bracketed]
  omega

theorem shows_compact {v : Json} (hv : v.Storable) (hdepth : v.depth ≤ 127) :
    Shows v v.compact := by
  have hshows : Shows v ("" ++ v.compact ++ "") :=
    shows_text rfl rfl (written_compact v) hv hdepth
  rwa [String.append_empty, String.empty_append] at hshows

/-- Two stops that differ in a note, the second of them nested too deeply to be read, an action that
is `null` in front of a stop, an object without any of the keys, and a call. -/
theorem first_key_decides_noted :
    (parse (noted .null).compact = .ok (.stop "done") ∧
      parse (noted .emptyObject).compact = parse (noted .null).compact ∧
      ∃ e, parse ("" ++ deeplyNoted.compact ++ "") = .error (.misread e deeplyNoted.compact)) ∧
    (∃ cause, parse (Json.object [("action", .null),
      ("stop", .object [("reason", .string "done")])]).compact =
        .error (.malformed "action" cause)) ∧
    parse Json.emptyObject.compact =
      .error (.noShape (Text.stripFence Json.emptyObject.compact)) ∧
    (parse (callObject measuring).compact = .ok (.callTool measuring) ∧
      measuring.args.isNull = false) := by
  obtain ⟨hcarries, hdeep, hframe, hdecided, hnone, hcall⟩ := first_key_decides
  have hread {v : Json} (hv : v.isObject = true) (hkept : v.Storable) (hdepth : v.depth ≤ 127) :
      Carries v.compact v :=
    hcarries v _ hv (shows_compact hkept hdepth)
  have hcarried : Carries (noted .null).compact (noted .null) :=
    hread rfl (storable_noted storable_null) (by decide)
  have hcarried' : Carries (noted .emptyObject).compact (noted .emptyObject) :=
    hread rfl (storable_noted storable_emptyObject) (by decide)
  have hmeasuring : parse (callObject measuring).compact = .ok (.callTool measuring) :=
    parse_callObject measuring_storable (by decide) rfl (written_compact _) (by decide)
  refine ⟨⟨?_, ?_, ?_⟩, ?_, ?_, hmeasuring, (hcall _ _ hmeasuring).2⟩
  · exact (hdecided _ _ "action" rfl hcarried rfl).1 _ rfl
  · exact hframe _ _ _ _ "action" rfl rfl hcarried hcarried' rfl (agree_noted _ _)
  · exact hdeep _ "" _ "" rfl rfl rfl (written_compact _) storable_deeplyNoted.exact
      depth_deeplyNoted
  · have hreason : (object [("reason", .string "done")]).Storable := .object (by decide) (by simp)
    refine (hdecided _ _ "action" rfl (hread rfl ?_ (by decide)) rfl).2.2 rfl
    exact .object (by decide) (by simp [hreason])
  · exact hnone _ _ rfl (hread rfl storable_emptyObject (by decide)) rfl

/-- What stands beside the fields that decide may still be nested too deeply to be read. -/
theorem deep_note_not_passed_over :
    ¬ ∀ o o' : Json.Kept, o.val.isObject = true → o'.val.isObject = true →
      (shape? o).isSome = true → Agree o o' → parse o'.val.compact = parse o.val.compact := by
  intro h
  have hnull : (noted .null).Storable := storable_noted storable_null
  have hcarries : Carries (noted .null).compact (noted .null) :=
    (shows_compact hnull (by decide)).carries rfl
  have hstop : parse (noted .null).compact = .ok (.stop "done") :=
    parse_follows rfl hcarries rfl
  obtain ⟨e, he⟩ : ∃ e, parse ("" ++ deeplyNoted.compact ++ "") =
      .error (.misread e deeplyNoted.compact) :=
    parse_nested rfl rfl rfl (written_compact _) storable_deeplyNoted.exact depth_deeplyNoted
  rw [String.append_empty, String.empty_append] at he
  have hsame : parse deeplyNoted.compact = parse (noted .null).compact :=
    h ⟨_, hnull⟩ ⟨_, storable_deeplyNoted⟩ rfl rfl rfl (agree_noted .null (bracketed 127 .null))
  rw [hstop] at hsame
  cases he.symm.trans hsame

end Decision

end Conductor

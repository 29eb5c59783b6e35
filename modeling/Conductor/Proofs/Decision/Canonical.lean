import Conductor.Proofs.Reply
import Conductor.Proofs.Stored

/-!
# The canonical form of a decision

A decision has a canonical object: its kind stands under the key `action`, and the fields of its
variant stand beside it. A reply that is a text of this object holds that decision again, in
whatever layout and with whatever white space around it.

* `Decision.canonical` : the object of a decision;
* `Decision.Sayable` : the decisions that a reply can hold: a call names its tool and has arguments;
* `Decision.ofAction_canonical` : **the canonical object stands for its decision;**
* `Decision.canonical_reads_back` : **a reply that is a text of it is read as that decision;**
  without arguments a call is made with no arguments, and without a name it is a fault.
-/

namespace Conductor

open Json

namespace Decision

/-! ### Canonical objects -/

/-- An object that stands for a call, with its keys in order. -/
def callObject (c : Call) : Json :=
  .object [("action", .string "call_tool"), ("args", c.args), ("name", .string c.name)]

/-- The object of a call whose arguments may be left out. -/
def callReply (name : String) : Option Json → Json
  | some args => callObject ⟨name, args⟩
  | none => .object [("action", .string "call_tool"), ("name", .string name)]

/-- The object of a decision: its kind and the fields of its variant, with the keys in order. -/
def canonical : Decision → Json
  | .callTool c => callObject c
  | .askUser q fields =>
    .object [("action", .string "ask_user"), ("missing_fields", .strings fields),
      ("question", .string q)]
  | .stop r => .object [("action", .string "stop"), ("reason", .string r)]
  | .replan gs => .object [("action", .string "replan"), ("subgoals", .strings gs)]

/-- A call in the decision names its tool and has arguments. -/
def Sayable : Decision → Prop
  | .callTool c => Text.isBlankText c.name = false ∧ c.args.isNull = false
  | _ => True

variable {c : Call} {d : Decision} {s : String}

theorem canonical_isObject (d : Decision) : d.canonical.isObject = true := by cases d <;> rfl

theorem ofObject?_canonical (d : Decision) :
    ofObject? d.canonical = some (ofAction d.canonical) := by cases d <;> rfl

/-! ### What they stand for -/

theorem callOf_of_named {name : String} {args : Json} (hname : Text.isBlankText name = false)
    (hargs : args.isNull = false) : callOf name args = .ok (.callTool ⟨name, args⟩) := by
  rw [callOf, hname, hargs]
  rfl

theorem ofAction_callObject (h : c.args.Ordered) :
    ofAction (callObject c) = callOf c.name c.args := by
  have hformat : actionFormat.ofValue (callObject c) = .ok (.object
      [("action", .string "call_tool"), ("name", .string c.name), ("args", c.args)]) :=
    readAs_tagged rfl (by decide) (by decide) (.cons (.string c.name) (.cons (.any h) .nil))
      (.swap ..) (Document.holds_ofJson _)
  rw [ofAction, readUnder, hformat]
  rfl

theorem ofAction_askUser (q : String) (fields : List String) :
    ofAction (canonical (.askUser q fields)) = .ok (.askUser q fields) := by
  have hformat : actionFormat.ofValue (canonical (.askUser q fields)) = .ok (.object
      [("action", .string "ask_user"), ("question", .string q),
        ("missing_fields", .strings fields)]) :=
    readAs_tagged rfl (by decide) (by decide) (.cons (.string q) (.cons (.strings fields) .nil))
      (.swap ..) (Document.holds_ofJson _)
  rw [ofAction, readUnder, hformat]
  simp only [part?, get?, List.lookup_cons, String.reduceBEq, Option.bind_eq_bind, Option.bind_some,
    text?, texts?_strings, Option.pure_def, Option.getD_some]

theorem ofAction_replan (gs : List String) :
    ofAction (canonical (.replan gs)) = .ok (.replan gs) := by
  have hformat : actionFormat.ofValue (canonical (.replan gs)) = .ok (canonical (.replan gs)) :=
    (Format.Accepts.tagged rfl (by decide) (by decide) (fill_replan gs)).reads .value _
      (Document.holds_ofJson _)
  rw [ofAction, readUnder, hformat]
  simp only [canonical, part?, get?, List.lookup_cons, String.reduceBEq, Option.bind_eq_bind,
    Option.bind_some, text?, texts?_strings, Option.pure_def, Option.getD_some]

/-- **The canonical object of a decision stands for that decision.** -/
theorem ofAction_canonical (hd : d.Sayable) (hordered : d.canonical.Ordered) :
    ofAction d.canonical = .ok d := by
  cases d with
  | callTool c =>
    obtain ⟨hname, hargs⟩ := hd
    obtain ⟨-, -, hc, -⟩ := hordered
    exact (ofAction_callObject hc).trans (callOf_of_named hname hargs)
  | askUser q fields => exact ofAction_askUser q fields
  | stop r => rfl
  | replan gs => exact ofAction_replan gs

/-! ### Replies -/

theorem parse_canonical (h : Carries s d.canonical) : parse s = ofAction d.canonical :=
  parse_of_carries h d.canonical_isObject d.ofObject?_canonical

/-- What a call is read as is decided by its name and its arguments, `null` for none. -/
theorem parse_callReply {name : String} {args : Option Json} (h : Carries s (callReply name args)) :
    parse s = callOf name (args.getD .null) := by
  cases args with
  | none => exact parse_of_carries h rfl rfl
  | some args =>
    obtain ⟨-, -, hargs, -⟩ := h.ordered
    exact (parse_of_carries h rfl rfl).trans (ofAction_callObject hargs)

theorem storable_callReply {name : String} {args : Json} (h : args.Storable) :
    (callReply name (some args)).Storable :=
  .object (show ["action", "args", "name"].Pairwise (· < ·) by decide) (by simp [h])

/-- **A call is read from its reply**, in whatever layout. -/
theorem parse_callObject (hc : c.Storable) (hname : Text.isBlankText c.name = false)
    (hargs : c.args.isNull = false) (h : Written (callObject c) s.toList)
    (hdepth : c.args.depth ≤ 126) : parse s = .ok (.callTool c) := by
  have hobject : (callObject c).Storable := storable_callReply hc.args
  have hdepth' : (callObject c).depth ≤ 127 := by
    simp only [callObject, Json.depth, Json.depthMembers]
    omega
  have hshows : Shows (callObject c) ("" ++ s ++ "") :=
    shows_text rfl rfl h hobject hdepth'
  rw [String.append_empty, String.empty_append] at hshows
  have hcarries : Carries s (callReply c.name (some c.args)) := hshows.carries rfl
  exact (parse_callReply hcarries).trans (callOf_of_named hname hargs)

/-- **A decision is read back from its canonical object.** Whatever is printed of an object, in
either layout and with white space around it, is a text of the object; a reply that is a text of the
canonical object of a decision is read as that decision. A call without arguments is read as one
with none, and a call without a name is a fault. -/
theorem canonical_reads_back :
    (∀ (v : Json.Kept) (before after : String), v.val.depth ≤ 127 →
      Text.isBlankText before = true → Text.isBlankText after = true →
      Shows v (before ++ v.val.compact ++ after) ∧ Shows v (before ++ v.val.pretty ++ after)) ∧
    (∀ (d : Decision) (s : String), d.Sayable → Shows d.canonical s → parse s = .ok d) ∧
    (∀ (name : String) (args : Option Json) (s : String), Text.isBlankText name = false →
      (args = none ∨ args = some .null) → Shows (callReply name args) s →
      parse s = .ok (.callTool ⟨name, .emptyObject⟩)) ∧
    (∀ (name : String) (args : Option Json) (s : String), Text.isBlankText name = true →
      Shows (callReply name args) s → parse s = .error .blankName) := by
  have hcall {name args s} (h : Shows (callReply name args) s) :
      parse s = callOf name (args.getD .null) :=
    parse_callReply (h.carries (by cases args <;> rfl))
  refine ⟨?_, ?_, ?_, ?_⟩
  · intro v before after hdepth hbefore hafter
    exact shows_printed hbefore hafter v.property hdepth
  · intro d s hd h
    have hcarries : Carries s d.canonical := h.carries d.canonical_isObject
    rw [parse_canonical hcarries, ofAction_canonical hd hcarries.ordered]
  · intro name args s hname hargs h
    rw [hcall h, callOf, hname]
    rcases hargs with rfl | rfl <;> rfl
  · intro name args s hname h
    rw [hcall h, callOf, hname]
    rfl

/-- A call, a stop with characters that are escaped, a call without arguments and a call without a
name, each printed with white space around it. -/
theorem canonical_reads_back_measuring :
    parse ("\n " ++ (canonical (.callTool measuring)).pretty ++ "\n") = .ok (.callTool measuring) ∧
    parse ("" ++ (canonical (.stop "`a\\b\t`\"")).compact ++ " ") = .ok (.stop "`a\\b\t`\"") ∧
    parse ("\t" ++ (callReply "clock" none).compact ++ "") =
      .ok (.callTool ⟨"clock", .emptyObject⟩) ∧
    parse ("" ++ (callReply " " (some measuring.args)).pretty ++ "") = .error .blankName := by
  obtain ⟨hkept, hread, hnone, hblank⟩ := canonical_reads_back
  have hprinted {v : Json} (hv : v.Storable) {before after : String} (hdepth : v.depth ≤ 127)
      (hbefore : Text.isBlankText before = true) (hafter : Text.isBlankText after = true) :
      Shows v (before ++ v.compact ++ after) ∧ Shows v (before ++ v.pretty ++ after) :=
    hkept ⟨v, hv⟩ before after hdepth hbefore hafter
  have hcall (name : String) : (callReply name (some measuring.args)).Storable :=
    storable_callReply measuring_storable.args
  have hstop : (canonical (.stop "`a\\b\t`\"")).Storable := .object (by decide) (by simp)
  have hbare : (callReply "clock" none).Storable := .object (by decide) (by simp)
  refine ⟨?_, ?_, ?_, ?_⟩
  · exact hread _ _ ⟨by decide, rfl⟩ (hprinted (hcall _) (by decide) (by decide) (by decide)).2
  · exact hread _ _ trivial (hprinted hstop (by decide) (by decide) (by decide)).1
  · exact hnone _ none _ (by decide) (.inl rfl)
      (hprinted hbare (by decide) (by decide) (by decide)).1
  · exact hblank " " (some _) _ (by decide)
      (hprinted (hcall _) (by decide) (by decide) (by decide)).2

end Decision

end Conductor

import Conductor.Decision.Reply
import Conductor.Proofs.Json.Codec
import Conductor.Proofs.Text.Fence

/-!
# Replies that hold an object

What is decided of an object does not depend on how it is written. A reply carries an object when
the text in it is read as that object; and every text of an object is read so, whatever its layout
and the order of its members, as long as its brackets may be opened and its numbers are read back.

* `Json.parse_written` : **every text of a value has that value, with its members sorted;**
* `Decision.Carries`, `Decision.Shows` : a reply is read as a value, and it is a text of a value;
* `Decision.Shows.carries` : **a reply that is a text of an object is read as that object;**
* `Decision.parse_of_carries` : **what is decided of a reply is decided of its object.**
-/

namespace Conductor

namespace Json

/-- **A text of a value that opens at most 127 brackets at once has that value**, with its members
in order. -/
theorem parse_written {j : Json} {s : String} (hexact : j.Exact) (h : Written j s.toList)
    (hdepth : j.depth ≤ 127) : parse s = .ok j.sorted := by
  obtain ⟨d, hread, hd⟩ := Document.read_written hexact h (Nat.lt_succ_of_le hdepth)
  rw [parse, hread]
  exact hd.value_sorted

/-- A text of members ends with the brace behind them. -/
theorem WrittenMembers.getLast? {first : Bool} {ms : List (String × Json)} {cs : List Char}
    (h : WrittenMembers first ms cs) : cs.getLast? = some '}' := by
  induction ms generalizing first cs with
  | nil =>
    obtain ⟨w, rfl, -⟩ := h
    exact List.getLast?_concat
  | cons m ms ih =>
    obtain ⟨w, u, v, vs, ds, rfl, -, -, -, -, hds⟩ := h
    simp only [List.getLast?_append, List.getLast?_cons, ih hds, Option.some_or, Option.getD_some]

/-- Sorting makes an object of nothing but an object. -/
theorem isObject_sorted (j : Json) : j.sorted.isObject = j.isObject := by cases j <;> rfl

end Json

open Json

namespace Decision

variable {s : String} {v : Json}

/-- The reply is read as the value, whether it stands between fences or not. -/
def Carries (s : String) (v : Json) : Prop := Json.parse (Text.stripFence s) = .ok v

/-- The reply is a text of the value between white space: in any layout, and with the members of
every object in any order. At most 127 brackets are open at once, and every number in it is read
back. -/
inductive Shows (v : Json) : String → Prop
  | intro {j : Json} {before text after : String} (hbefore : Text.isBlankText before = true)
      (hafter : Text.isBlankText after = true) (hwritten : Written j text.toList)
      (hexact : j.Exact) (hdepth : j.depth ≤ 127) (hvalue : j.sorted = v) :
      Shows v (before ++ text ++ after)

/-- Only white space is taken from a text of an object: it stands in braces. -/
theorem stripFence_written {ms : List (String × Json)} {before text after : String}
    (hbefore : Text.isBlankText before = true) (hafter : Text.isBlankText after = true)
    (h : Written (.object ms) text.toList) :
    Text.stripFence (before ++ text ++ after) = text := by
  obtain ⟨ds, htext, hds⟩ := h
  rw [Text.stripFence, String.toList_append, String.toList_append,
    Text.stripFenceChars_surrounded (List.all_eq_true.1 hbefore) (List.all_eq_true.1 hafter),
    String.ofList_toList]
  · rw [htext]
    intro x hx
    cases hx
    decide
  · rw [htext, List.getLast?_cons, hds.getLast?]
    intro x hx
    cases hx
    rfl

/-- **A reply that is a text of an object is read as that object.** -/
theorem Shows.carries (h : Shows v s) (hv : v.isObject = true) : Carries s v := by
  obtain ⟨hbefore, hafter, hwritten, hexact, hdepth, rfl⟩ := h
  rename_i j before text after
  rw [isObject_sorted] at hv
  cases j with
  | object ms =>
    rw [Carries, stripFence_written hbefore hafter hwritten]
    exact Json.parse_written hexact hwritten hdepth
  | _ => cases hv

theorem shows_text {before text after : String} (hbefore : Text.isBlankText before = true)
    (hafter : Text.isBlankText after = true) (hwritten : Written v text.toList)
    (hv : v.Storable) (hdepth : v.depth ≤ 127) : Shows v (before ++ text ++ after) :=
  .intro hbefore hafter hwritten hv.exact hdepth (sorted_of_ordered v hv.ordered)

/-- **Both printers write texts of a value.** -/
theorem shows_printed {before after : String} (hbefore : Text.isBlankText before = true)
    (hafter : Text.isBlankText after = true) (hv : v.Storable) (hdepth : v.depth ≤ 127) :
    Shows v (before ++ v.compact ++ after) ∧ Shows v (before ++ v.pretty ++ after) := by
  constructor
  · exact shows_text hbefore hafter (written_compact v) hv hdepth
  · exact shows_text hbefore hafter (written_pretty v) hv hdepth

/-- What is read has its members in order. -/
theorem Carries.ordered (h : Carries s v) : v.Ordered := by
  unfold Carries Json.parse at h
  split at h
  · exact Document.value_ordered _ h
  · obtain ⟨w, -, h⟩ := ok_of_bind h
    cases h

/-- **What is decided of a reply is decided of the object that it carries.** -/
theorem parse_of_carries {x : Except Fault Decision} (h : Carries s v) (hv : v.isObject = true)
    (hx : ofObject? v = some x) : parse s = x := by
  unfold parse
  rw [Carries] at h
  simp only [h, hv, hx, if_true, Option.getD_some]

end Decision

end Conductor

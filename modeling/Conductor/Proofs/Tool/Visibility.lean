import Conductor.Proofs.Keyed
import Conductor.Tool.Registry

/-!
# Tools that are switched off

A registry is made by registering tools and by switching them on and off. A tool that is switched
off stays in the registry, but nothing that the registry shows tells it from one that was never
registered.

* `Registry.made` : the registry after some changes;
* `Registry.erase_made` : without a tool it is the one that is made by the other changes;
* `Registry.Alike` : two registries show the same tools;
* `Registry.alike_erase` : **without a tool that is switched off the registry shows the same.**
-/

namespace Conductor

namespace Registry

/-! ### Changes -/

/-- What may be done to a registry. -/
inductive Change where
  | register (t : Tool)
  | setEnabled (name : String) (enabled : Bool)

namespace Change

/-- The name of the tool that a change is about. -/
def name : Change → String
  | .register t => t.name
  | .setEnabled name _ => name

/-- The registry after a change. -/
def apply (r : Registry) : Change → Registry
  | .register t => r.register t
  | .setEnabled name enabled => r.setEnabled name enabled

end Change

/-- The registry after some changes, which was empty before. -/
def made (cs : List Change) : Registry := cs.foldl Change.apply empty

variable {r r' : Registry} {name : String}

theorem erase_apply_self {c : Change} (h : c.name = name) :
    Keyed.erase (c.apply r) name = Keyed.erase r name := by
  subst h
  cases c with
  | register t => exact Keyed.erase_insert_self r
  | setEnabled n enabled =>
    rw [Change.apply, setEnabled]
    split
    · exact Keyed.erase_insert_self r
    · rfl

theorem erase_apply_of_ne {c : Change} (h : c.name ≠ name) :
    Keyed.erase (c.apply r) name = c.apply (Keyed.erase r name) := by
  cases c with
  | register t => exact Keyed.erase_insert_of_ne r h
  | setEnabled n enabled =>
    have hget : Keyed.get? (Keyed.erase r name) n = Keyed.get? r n := r.get?_erase_of_ne h
    rw [Change.apply, Change.apply, setEnabled, setEnabled, hget]
    cases Keyed.get? r n with
    | none => rfl
    | some e => exact Keyed.erase_insert_of_ne r h

theorem erase_foldl_apply (cs : List Change) : Keyed.erase (cs.foldl Change.apply r) name =
    (cs.filter fun c => c.name != name).foldl Change.apply (Keyed.erase r name) := by
  induction cs generalizing r with
  | nil => rfl
  | cons c cs ih =>
    rw [List.foldl_cons, ih]
    by_cases h : c.name = name
    · rw [List.filter_cons_of_neg (by simpa using h), erase_apply_self h]
    · rw [List.filter_cons_of_pos (by simpa using h), List.foldl_cons, erase_apply_of_ne h]

/-- **Without a tool a registry is as the changes of the other tools have made it.** -/
theorem erase_made (cs : List Change) (name : String) :
    Keyed.erase (made cs) name = made (cs.filter fun c => c.name != name) :=
  erase_foldl_apply cs

/-! ### What is shown -/

/-- The registries show the same tools. -/
structure Alike (r r' : Registry) : Prop where
  get : ∀ name, r.get? name = r'.get? name
  enabled : r.enabled = r'.enabled

/-- **Without a tool that is switched off a registry shows the same tools.** -/
theorem alike_erase {e : Entry} (h : Keyed.get? r name = some e) (hoff : e.enabled = false) :
    Alike r (Keyed.erase r name) where
  get n := by
    unfold get?
    rw [Keyed.get?_erase]
    by_cases hn : n = name
    · rw [if_pos hn, hn, h]
      simp [hoff]
    · rw [if_neg hn]
  enabled := by
    change _ = ((r.entries.filter _).filter _).map _
    rw [List.filter_filter]
    change _ = (r.entries.filter fun p => p.2.enabled && p.1 != name).map _
    refine congrArg (List.map _) (List.filter_congr fun p hp => ?_)
    -- the only entry that is left out is not enabled
    by_cases hp' : p.1 = name
    · have hentry : p.2 = e := Option.some.inj ((Keyed.get?_of_mem hp).symm.trans (hp' ▸ h))
      rw [hentry, hoff, Bool.false_and]
    · rw [bne_iff_ne.2 hp', Bool.and_true]

namespace Alike

variable (h : Alike r r')

include h

theorem names : r.names = r'.names := congrArg (List.map _) h.enabled

theorem catalogSection : r.catalogSection = r'.catalogSection := by
  unfold Registry.catalogSection
  rw [h.enabled]

theorem fallbacks : r.fallbacks = r'.fallbacks := by
  unfold Registry.fallbacks
  rw [h.enabled]

end Alike

end Registry

end Conductor

import Conductor.Schema.Violation

/-!
# Checking values

All violations of a schema by a value: the rules in their order, members in the order of their
keys, items by index.

* `Schema.violations` : the violations of a schema;
* `Rule.violations` : those of one rule.
-/

namespace Conductor

/-- The numbers of two values that are numbers. -/
def Bound.breach? (b : Bound) (limit : Number) : Json → Option Breach
  | .number n => if b.holds limit n then none else some (.bound b n limit)
  | _ => none

/-- The breach of an upper limit. -/
def Extent.tooMuch? (e : Extent) (limit : Nat) (v : Json) : Option Breach := do
  if limit < (← e.of? v) then some (.tooMuch e v limit) else none

/-- The breach of a lower limit. -/
def Extent.tooLittle? (e : Extent) (limit : Nat) (v : Json) : Option Breach := do
  if (← e.of? v) < limit then some (.tooLittle e v limit) else none

/-- The violation at a path, if there is a breach. -/
def Breach.located (path : Path) (b : Option Breach) : List Violation :=
  b.toList.map fun b => ⟨path, b⟩

mutual

/-- The violations of a schema by the value at a path. -/
def Schema.check (path : Path) : Schema → Json → List Violation
  | .constant true, _ => []
  | .constant false, v => [⟨path, .refused v⟩]
  | .rules rs, v => Schema.checkAll path rs v

/-- The violations of rules in their order. -/
def Schema.checkAll (path : Path) : List Rule → Json → List Violation
  | [], _ => []
  | r :: rs, v => Rule.check path r v ++ Schema.checkAll path rs v

/-- The violations of a rule by the value at a path. -/
def Rule.check (path : Path) : Rule → Json → List Violation
  | .type ts, v => if ts.any (·.holds v) then [] else [⟨path, .type v ts⟩]
  | .enum vs, v => if vs.any (·.alike v) then [] else [⟨path, .enum v vs⟩]
  | .const w, v => if w.alike v then [] else [⟨path, .const w⟩]
  | .bound b limit, v => Breach.located path (b.breach? limit v)
  | .atMost e limit, v => Breach.located path (e.tooMuch? limit v)
  | .atLeast e limit, v => Breach.located path (e.tooLittle? limit v)
  | .required keys, .object ms =>
    (keys.filter fun k => !(ms.lookup k).isSome).map fun k => ⟨path, .missing k⟩
  | .properties declared, .object ms => Schema.checkDeclared path declared ms
  | .closed declared, .object ms =>
    let unexpected := (ms.map (·.1)).filter fun k => !(declared.lookup k).isSome
    (ms.flatMap fun (k, x) => (Schema.checkNamed path k declared x).getD []) ++
      if unexpected.isEmpty then [] else [⟨path, .unexpected unexpected⟩]
  | .openTo declared others, .object ms =>
    ms.flatMap fun (k, x) =>
      (Schema.checkNamed path k declared x).getD (Schema.check (path ++ [.member k]) others x)
  | .noMembers, .object ((_, x) :: _) => [⟨path, .refused x⟩]
  | .members s, .object ms =>
    ms.flatMap fun (k, x) => Schema.check (path ++ [.member k]) s x
  | .items s, .array xs =>
    xs.zipIdx.flatMap fun (x, i) => Schema.check (path ++ [.item i]) s x
  | .noItems, .array (x :: xs) => [⟨path, .refused (.array (x :: xs))⟩]
  | _, _ => []

/-- The violations of declared schemas by the members that an object has. -/
def Schema.checkDeclared (path : Path) :
    List (String × Schema) → List (String × Json) → List Violation
  | [], _ => []
  | (k, s) :: rest, ms =>
    (match ms.lookup k with
      | some x => Schema.check (path ++ [.member k]) s x
      | none => []) ++ Schema.checkDeclared path rest ms

/-- The violations of the declared schema of one member, if it has one. -/
def Schema.checkNamed (path : Path) (key : String) :
    List (String × Schema) → Json → Option (List Violation)
  | [], _ => none
  | (k, s) :: rest, x =>
    if k = key then some (Schema.check (path ++ [.member key]) s x)
    else Schema.checkNamed path key rest x

end

/-- The violations of a schema by a value. -/
def Schema.violations (s : Schema) (v : Json) : List Violation := s.check [] v

/-- A value is accepted. -/
def Schema.accepts (s : Schema) (v : Json) : Bool := (s.violations v).isEmpty

end Conductor

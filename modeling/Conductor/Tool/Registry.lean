import Conductor.Tool.Basic

/-!
# The registry of tools

The tools by name. A tool can be switched off; then it is as if it were not there.

* `Registry.get?` : an enabled tool;
* `Registry.fallbacks` : which enabled tool names which stand-in;
* `Registry.catalogSection` : the enabled tools as they stand in a prompt.
-/

namespace Conductor

/-- A registered tool. -/
structure Registry.Entry where
  tool : Tool
  enabled : Bool

/-- The registered tools by name. -/
abbrev Registry := Keyed Registry.Entry

namespace Registry

/-- No tools. -/
def empty : Registry := Keyed.empty

/-- Registers a tool, in place of one of the same name. -/
def register (r : Registry) (t : Tool) : Registry := r.insert t.name ⟨t, true⟩

/-- Switches a tool on or off. -/
def setEnabled (r : Registry) (name : String) (enabled : Bool) : Registry :=
  match Keyed.get? r name with
  | some e => r.insert name { e with enabled := enabled }
  | none => r

/-- The registry knows the name. -/
def knows (r : Registry) (name : String) : Bool := Keyed.contains r name

/-- An enabled tool. -/
def get? (r : Registry) (name : String) : Option Tool :=
  match Keyed.get? r name with
  | some e => if e.enabled then some e.tool else none
  | none => none

/-- The enabled tools in the order of their names. -/
def enabled (r : Registry) : List Tool :=
  (r.entries.filter fun p => p.2.enabled).map fun p => p.2.tool

/-- The names of the enabled tools. -/
def names (r : Registry) : List String := r.enabled.map (·.name)

/-- The stand-ins that enabled tools name. -/
def fallbacks (r : Registry) : Keyed String :=
  .ofList (r.enabled.filterMap fun t => t.fallback.map fun f => (t.name, f))

/-- The lines about a tool in the catalogue. -/
def toolLines (t : Tool) : List String :=
  ("- " ++ t.name ++ ": " ++ t.description ++ "\n") ::
    t.parameters.map fun p => "  - " ++ p.catalogLine ++ "\n"

/-- The enabled tools as they stand in a prompt. -/
def catalogSection (r : Registry) : String :=
  "## Available tools\n" ++ String.join (r.enabled.flatMap toolLines)

/-- The registry of a list of tools. -/
def ofList (ts : List Tool) : Registry := ts.foldl register empty

end Registry

end Conductor

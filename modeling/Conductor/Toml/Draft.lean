import Conductor.Toml.Basic

/-!
# Tables in the making

The tables of a TOML document while its lines are read. A table knows how it came about, because
that decides what may still be added to it: nothing may be defined twice.

* `Draft.assign` : the entries with a value under a dotted key;
* `Draft.openTable`, `Draft.openItem` : the entries after a header;
* `Draft.toToml` : the finished table.
-/

namespace Conductor

namespace Toml

/-- How a table came about. -/
inductive Cause where
  /-- It has a header or braces of its own, or is an item of a list of tables. -/
  | header
  /-- It stands on the way to a table with a header. -/
  | path
  /-- It stands on the way to a dotted key. -/
  | dots
  deriving DecidableEq, Repr, Inhabited

/-- What stands under a key while lines are read. -/
inductive Node where
  | value (v : Toml)
  | table (cause : Cause) (entries : List (String × Node))
  | tables (items : List (List (String × Node)))
  deriving Inhabited

/-- The entries of a table while lines are read. -/
abbrev Draft := List (String × Node)

namespace Draft

/-- The entries after a step at the table that a path leads to. A list of tables is entered at its
last table; a missing table is made, with the given cause. Dots lead into no table that has a
header. -/
def within (made : Cause) (step : Cause → Draft → Option Draft) (cause : Cause) (entries : Draft) :
    List String → Option Draft
  | [] => step cause entries
  | key :: path =>
    match entries.lookup key with
    | none => do
      return insertByKey key (.table made (← within made step made [] path)) entries
    | some (.value _) => none
    | some (.tables items) => do
      let inner ← within made step .header (← items.getLast?) path
      return insertByKey key (.tables (items.dropLast ++ [inner])) entries
    | some (.table cause inner) =>
      if made = .dots ∧ cause = .header then none
      else do
        return insertByKey key (.table cause (← within made step cause inner path)) entries

/-- The entries with a value under a key; the path that leads to the table of the key is written
with dots. -/
def assign (path : List String) (key : String) (v : Toml) (entries : Draft) : Option Draft :=
  entries.within .dots (fun cause inner =>
    if (cause = .dots ↔ path = []) ∨ (inner.lookup key).isSome then none
    else some (insertByKey key (.value v) inner)) .header path

/-- The entries after the header of a table. -/
def openTable (path : List String) (key : String) (entries : Draft) : Option Draft :=
  entries.within .path (fun _ inner =>
    match inner.lookup key with
    | none => some (insertByKey key (.table .header []) inner)
    | some (.table .path made) => some (insertByKey key (.table .header made) inner)
    | some _ => none) .header path

/-- The entries after the header of an item of a list of tables. -/
def openItem (path : List String) (key : String) (entries : Draft) : Option Draft :=
  entries.within .path (fun _ inner =>
    match inner.lookup key with
    | none => some (insertByKey key (.tables [[]]) inner)
    | some (.tables items) => some (insertByKey key (.tables (items ++ [[]])) inner)
    | some _ => none) .header path

end Draft

/-! ### Finished tables -/

mutual

/-- What stands under a key when all lines have been read. -/
def Node.toToml : Node → Toml
  | .value v => v
  | .table _ entries => .table (Node.finished entries)
  | .tables items => .array (Node.finishedTables items)

/-- The entries of a table when all lines have been read. -/
def Node.finished : List (String × Node) → List (String × Toml)
  | [] => []
  | (key, node) :: rest => (key, node.toToml) :: Node.finished rest

/-- The tables of a list when all lines have been read. -/
def Node.finishedTables : List (List (String × Node)) → List Toml
  | [] => []
  | entries :: rest => .table (Node.finished entries) :: Node.finishedTables rest

end

/-- The table when all lines have been read. -/
def Draft.toToml (entries : Draft) : Toml := .table (Node.finished entries)

end Toml

end Conductor

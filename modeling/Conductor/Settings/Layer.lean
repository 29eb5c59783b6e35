import Conductor.Json.Basic
import Conductor.Number.Decimal
import Conductor.Path
import Conductor.Text.Case
import Conductor.Toml.Basic

/-!
# Layers

What sources say about settings. Every value knows the source that it comes from. Layers are laid
over each other: tables are put together key by key, without regard to capital letters, and
anything else takes the place of what was there.

* `Layer.merge` : a table with a value under a key;
* `Layer.place` : a layer with a value at the place that a path leads to;
* `Layer.ofToml`, `Layer.ofJson`, `Layer.ofVariable` : what the sources say.
-/

namespace Conductor

/-! ### Values with their sources -/

/-- A value without parts. -/
inductive Atom where
  | nothing
  | bool (b : Bool)
  | int (n : Int)
  | float (x : Binary.Extended)
  | text (s : String)
  deriving DecidableEq, Repr, Inhabited

/-- What sources say. The origin of a value names its source; a table or a list that was made while
layers were laid over each other has none. -/
inductive Layer where
  | atom (value : Atom) (origin : Option String)
  | list (items : List Layer) (origin : Option String)
  | table (entries : List (String × Layer)) (origin : Option String)
  deriving Inhabited

namespace Layer

/-- The source that a value comes from. -/
def origin : Layer → Option String
  | .atom _ o | .list _ o | .table _ o => o

/-- The value that stands where nothing has been said. -/
def blank : Layer := .atom .nothing none

/-- The table without entries. -/
def empty : Layer := .table [] none

/-- The layer as a table with changed entries; what is no table is replaced by one. -/
def onEntries (f : List (String × Layer) → List (String × Layer)) : Layer → Layer
  | .table entries o => .table (f entries) o
  | _ => .table (f []) none

/-- The layer as a list with changed items; what is no list is replaced by one. -/
def onItems (f : List Layer → List Layer) : Layer → Layer
  | .list items o => .list (f items) o
  | _ => .list (f []) none

mutual

/-- The target as a table with a value under a key. A table is put together with the one that is
there. -/
def merge (key : String) (value target : Layer) : Layer :=
  match value with
  | .table entries _ =>
    target.onEntries fun es =>
      insertByKey (Text.lower key)
        (mergeAll entries ((es.lookup (Text.lower key)).getD empty)) es
  | value => target.onEntries (insertByKey (Text.lower key) value)

/-- The target as a table with all entries put in. -/
def mergeAll (entries : List (String × Layer)) (target : Layer) : Layer :=
  match entries with
  | [] => target
  | (key, value) :: rest => mergeAll rest (merge key value target)

end

/-- The target with a value at the place that a path leads to; what is missing on the way is
made. -/
def place (value : Layer) : Path → Layer → Layer
  | [], _ => value
  | [.member k], target => merge k value target
  | .member k :: rest, target =>
    target.onEntries fun es =>
      insertByKey (Text.lower k)
        (place value rest ((es.lookup (Text.lower k)).getD blank)) es
  | .item i :: rest, target =>
    target.onItems fun items =>
      let padded := items ++ List.replicate (i + 1 - items.length) blank
      padded.set i (place value rest ((items[i]?).getD blank))

/-- The target with the values of a source, whose keys are paths. -/
def overlay (target : Layer) (entries : List (String × Layer)) : Layer :=
  entries.foldl (fun t e => place e.2 (.ofDotted e.1) t) target

/-! ### Sources -/

/-- The number that a number of 64 bits is as a setting. -/
def ofNumber : Number → Atom
  | .int n => if Decimal.fitsSigned n then .int n else .float (Binary.double.ofInt n)
  | .float x => .float (.finite x)

mutual

/-- What a TOML value of a source says. -/
def ofToml (source : String) : Toml → Layer
  | .bool b => .atom (.bool b) (some source)
  | .int n => .atom (.int n) (some source)
  | .float x => .atom (.float x) (some source)
  | .text s => .atom (.text s) (some source)
  | .array items => .list (ofTomlItems source items) (some source)
  | .table entries => .table (ofTomlEntries source entries) (some source)

/-- What the items of a TOML array say. -/
def ofTomlItems (source : String) : List Toml → List Layer
  | [] => []
  | v :: rest => ofToml source v :: ofTomlItems source rest

/-- What the entries of a TOML table say. -/
def ofTomlEntries (source : String) : List (String × Toml) → List (String × Layer)
  | [] => []
  | (key, v) :: rest => (key, ofToml source v) :: ofTomlEntries source rest

end

mutual

/-- What a JSON value of a source says. -/
def ofJson (source : String) : Json → Layer
  | .null => .atom .nothing (some source)
  | .bool b => .atom (.bool b) (some source)
  | .number n => .atom (ofNumber n) (some source)
  | .string s => .atom (.text s) (some source)
  | .array items => .list (ofJsonItems source items) (some source)
  | .object members => .table (ofJsonMembers source members) (some source)

/-- What the items of a JSON array say. -/
def ofJsonItems (source : String) : List Json → List Layer
  | [] => []
  | v :: rest => ofJson source v :: ofJsonItems source rest

/-- What the members of a JSON object say. -/
def ofJsonMembers (source : String) : List (String × Json) → List (String × Layer)
  | [] => []
  | (key, v) :: rest => (key, ofJson source v) :: ofJsonMembers source rest

end

/-- The entries of a table. -/
def entries? : Layer → Option (List (String × Layer))
  | .table entries _ => some entries
  | _ => none

/-! ### The environment -/

/-- How the names of the variables begin that are about settings, in small letters. -/
def variableStart : String := "hive__"

/-- The value of a variable: a truth value, an integer or a binary number if the text is one. -/
def ofWord (s : String) : Atom :=
  if Text.lower s = "true" then .bool true
  else if Text.lower s = "false" then .bool false
  else match (Decimal.integer? s.toList).filter Decimal.fitsSigned, Decimal.double? s.toList with
    | some n, _ => .int n
    | none, some x => .float x
    | none, none => .text s

/-- What a variable of the environment says, if it is about settings. Two underscores in its name
stand for a point. -/
def ofVariable (name value : String) : Option (String × Layer) :=
  let name := Text.lower name
  if name.startsWith variableStart then
    let path := String.ofList (name.toList.drop variableStart.length)
    some (".".intercalate (path.splitOn "__"), .atom (ofWord value) (some "the environment"))
  else none

end Layer

end Conductor

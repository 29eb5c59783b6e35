import Conductor.Toml.Draft
import Conductor.Toml.Quoted
import Conductor.Toml.Scalar

/-!
# Reading TOML

A document is read line by line: comments, headers of tables, and keys with their values. At most
79 brackets may be open at once, and a key has at most 79 parts.

* `Toml.takeKey`, `Toml.takeValue` : a dotted key and a value at the start of a list;
* `Toml.parse?` : the table that a text holds, unless something is wrong with the text.
-/

namespace Conductor

namespace Toml

/-! ### Spaces, comments and keys -/

/-- The characters behind spaces and tabs. -/
def skipGaps (cs : List Char) : List Char := cs.dropWhile isGap

/-- The characters behind a comment, if one comes next. -/
def skipComment : List Char → List Char
  | '#' :: rest => rest.dropWhile isWritable
  | cs => cs

/-- The characters behind the end of a line, where only a comment may stand before it. -/
def endOfLine? (cs : List Char) : Option (List Char) :=
  match skipComment (skipGaps cs) with
  | [] => some []
  | rest => lineBreak? rest

/-- The characters behind spaces, comments and line breaks; fuel bounds the lines. -/
def skipLines : Nat → List Char → List Char
  | 0, cs => cs
  | fuel + 1, cs =>
    match lineBreak? (skipComment (skipGaps cs)) with
    | some rest => skipLines fuel rest
    | none => skipGaps cs

/-- The character may stand in a key without quotation marks. -/
def isBare (c : Char) : Bool :=
  Decimal.isDigit c || ('a' ≤ c && c ≤ 'z') || ('A' ≤ c && c ≤ 'Z') || c == '_' || c == '-'

/-- One part of a key. -/
def takePart (cs : List Char) : Option (String × List Char) :=
  match takeQuoted cs with
  | some r => some r
  | none =>
    let part := cs.takeWhile isBare
    if part.isEmpty then none else some (String.ofList part, cs.dropWhile isBare)

/-- The most parts of a key, and the most brackets that are open at once. -/
def depthLimit : Nat := 79

/-- A key of at most `room` parts: the path to its table, its last part, and what is left. -/
def takeParts : Nat → List Char → Option (List String × String × List Char)
  | 0, _ => none
  | room + 1, cs => do
    let (part, rest) ← takePart (skipGaps cs)
    match skipGaps rest with
    | '.' :: rest => do
      let (path, key, rest) ← takeParts room rest
      return (part :: path, key, rest)
    | rest => return ([], part, rest)

/-- A key at the start of a list. -/
def takeKey (cs : List Char) : Option (List String × String × List Char) := takeParts depthLimit cs

/-! ### Values -/

mutual

/-- A value in which at most `room` brackets are open at once. -/
def takeValueIn (room : Nat) : Nat → List Char → Option (Toml × List Char)
  | 0, _ => none
  | fuel + 1, cs =>
    match cs with
    | '[' :: rest => if room = 0 then none else takeItems (room - 1) [] fuel rest
    | '\x7b' :: rest =>
      if room = 0 then none
      else match skipGaps rest with
        | '\x7d' :: rest => some (.table [], rest)
        | rest => takeEntries (room - 1) [] fuel rest
    | '"' :: _ | '\'' :: _ => (takeText cs).map fun (s, rest) => (.text s, rest)
    | cs => takeScalar cs

/-- The items of an array, of which `acc` have been read, backwards. -/
def takeItems (room : Nat) (acc : List Toml) : Nat → List Char → Option (Toml × List Char)
  | 0, _ => none
  | fuel + 1, cs =>
    match skipLines cs.length cs with
    | ']' :: rest => some (.array acc.reverse, rest)
    | cs => do
      let (v, rest) ← takeValueIn room fuel cs
      match skipLines rest.length rest with
      | ',' :: rest => takeItems room (v :: acc) fuel rest
      | ']' :: rest => return (.array (v :: acc).reverse, rest)
      | _ => none

/-- The entries of a table in braces, which is written on one line. -/
def takeEntries (room : Nat) (entries : Draft) : Nat → List Char → Option (Toml × List Char)
  | 0, _ => none
  | fuel + 1, cs => do
    let (path, key, rest) ← takeKey cs
    let (v, rest) ← takeValueIn room fuel (skipGaps (← behind '=' rest))
    let entries ← entries.assign path key v
    match skipGaps rest with
    | ',' :: rest => takeEntries room entries fuel rest
    | '\x7d' :: rest => return (entries.toToml, rest)
    | _ => none

end

/-- A value at the start of a list. -/
def takeValue (cs : List Char) : Option (Toml × List Char) :=
  takeValueIn depthLimit (2 * cs.length + 2) cs

/-! ### Lines -/

/-- The tables read so far, and the path of the table that keys belong to. -/
structure Progress where
  tables : Draft
  current : List String

/-- The tables after a key with its value. -/
def Progress.assign (p : Progress) (path : List String) (key : String) (v : Toml) :
    Option Progress := do
  let tables ← p.tables.within .path (fun _ inner => inner.assign path key v) .header p.current
  return { p with tables }

/-- The progress after the line at the start of a list. -/
def takeLine (p : Progress) (cs : List Char) : Option (Progress × List Char) :=
  match cs with
  | '[' :: '[' :: rest => do
    let (path, key, rest) ← takeKey rest
    let rest ← endOfLine? (← behind ']' (← behind ']' rest))
    return (⟨← p.tables.openItem path key, path ++ [key]⟩, rest)
  | '[' :: rest => do
    let (path, key, rest) ← takeKey rest
    let rest ← endOfLine? (← behind ']' rest)
    return (⟨← p.tables.openTable path key, path ++ [key]⟩, rest)
  | cs =>
    match endOfLine? cs with
    | some rest => some (p, rest)
    | none => do
      let (path, key, rest) ← takeKey cs
      let (v, rest) ← takeValue (skipGaps (← behind '=' rest))
      return (← p.assign path key v, ← endOfLine? rest)

/-- The tables after all lines; fuel bounds the lines. -/
def takeLines (p : Progress) : Nat → List Char → Option Draft
  | 0, _ => none
  | fuel + 1, cs =>
    match skipGaps cs with
    | [] => some p.tables
    | cs => do
      let (p, rest) ← takeLine p cs
      takeLines p fuel rest

/-- The characters without a byte order mark in front. -/
def withoutMark : List Char → List Char
  | c :: rest => if c.toNat = 0xFEFF then rest else c :: rest
  | [] => []

/-- The table that a text holds. -/
def parse? (s : String) : Option Toml :=
  let cs := withoutMark s.toList
  (takeLines ⟨[], []⟩ (cs.length + 1) cs).map Draft.toToml

end Toml

end Conductor

import Conductor.Number.Decimal

/-!
# Paths

The way from a value to a part of it: keys of tables and numbers of items. A path is written as a
pointer, with a slash before every step, or with points between keys and brackets around numbers.

* `Path.pointer`, `Path.dotted` : the two texts of a path;
* `Path.ofDotted` : the path that a dotted text denotes.
-/

namespace Conductor

/-- One step from a value to a part of it. -/
inductive Step where
  | member (key : String)
  | item (index : Nat)
  deriving DecidableEq, Repr, Inhabited

/-- The way from a value to a part of it. -/
abbrev Path := List Step

/-! ### Pointers -/

/-- A character of a key as it stands in a pointer. -/
def Step.escape (c : Char) : List Char :=
  if c = '~' then ['~', '0'] else if c = '/' then ['~', '1'] else [c]

/-- A step of a pointer. -/
def Step.render : Step → String
  | .member key => "/" ++ String.ofList (key.toList.flatMap Step.escape)
  | .item index => "/" ++ toString index

namespace Path

/-- The JSON pointer of a path. -/
def pointer (p : Path) : String := String.join (p.map Step.render)

/-! ### Dotted texts -/

/-- The text of a path: keys with points between them, and numbers in brackets. -/
def dotted : Path → String
  | [] => ""
  | .member k :: rest =>
    let tail := dotted rest
    if tail.isEmpty || tail.startsWith "[" then k ++ tail else k ++ "." ++ tail
  | .item i :: rest => "[" ++ toString i ++ "]" ++ dotted rest

/-- The character may stand in a key of a path. -/
def isKeyLetter (c : Char) : Bool := c.isAlphanum || c == '_' || c == '-'

/-- A number in brackets, behind the opening bracket. -/
def takeItem (cs : List Char) : Option (Nat × List Char) := do
  let blank (c : Char) : Bool := c == ' ' || c == '\t' || c == '\n' || c == '\r'
  let cs := cs.dropWhile blank
  let n ← Decimal.digits? (cs.takeWhile Decimal.isDigit)
  match (cs.dropWhile Decimal.isDigit).dropWhile blank with
  | ']' :: rest => return (n, rest)
  | _ => none

/-- A key, and what is left. -/
def takeKey (cs : List Char) : Option (String × List Char) :=
  let key := cs.takeWhile isKeyLetter
  if key.isEmpty then none else some (String.ofList key, cs.dropWhile isKeyLetter)

/-- The steps behind the first one; fuel bounds their number. -/
def takeSteps : Nat → List Char → Option Path
  | _, [] => some []
  | fuel + 1, '.' :: cs => do
    let (key, rest) ← takeKey cs
    return .member key :: (← takeSteps fuel rest)
  | fuel + 1, '[' :: cs => do
    let (n, rest) ← takeItem cs
    return .item n :: (← takeSteps fuel rest)
  | _, _ => none

/-- The path that a text denotes; a text that denotes none is a key as a whole. -/
def ofDotted (s : String) : Path :=
  let path : Option Path := do
    let (key, rest) ← takeKey s.toList
    return .member key :: (← takeSteps rest.length rest)
  path.getD [.member s]

end Path

end Conductor

/-!
# Substitution

Occurrences of a pattern in a text, and their replacement. Occurrences are found from left to
right and do not overlap; what has been put in is not looked at again in the same pass.

* `occursIn` : the pattern stands somewhere in the text;
* `replaceAll` : every occurrence of one pattern replaced;
* `substitute` : every occurrence of several patterns replaced in one pass.
-/

namespace Conductor

namespace Text

/-- The pattern stands somewhere in the characters. -/
def occursIn (pattern : List Char) : List Char → Bool
  | [] => pattern.isEmpty
  | c :: rest => pattern.isPrefixOf (c :: rest) || occursIn pattern rest

/-- Replaces the pattern after the next `skip` characters, which belong to an occurrence already
replaced. -/
def replaceFrom (pattern by_ : List Char) : Nat → List Char → List Char
  | _, [] => []
  | skip + 1, _ :: rest => replaceFrom pattern by_ skip rest
  | 0, c :: rest =>
    if pattern.isPrefixOf (c :: rest) then by_ ++ replaceFrom pattern by_ (pattern.length - 1) rest
    else c :: replaceFrom pattern by_ 0 rest

/-- The text with every occurrence of a pattern replaced; the pattern is not empty. -/
def replaceAll (s pattern by_ : String) : String :=
  String.ofList (replaceFrom pattern.toList by_.toList 0 s.toList)

/-- Replaces the first pattern of a table that stands here, after the next `skip` characters. -/
def substituteFrom (table : List (List Char × List Char)) : Nat → List Char → List Char
  | _, [] => []
  | skip + 1, _ :: rest => substituteFrom table skip rest
  | 0, c :: rest =>
    match table.find? (fun entry => entry.1.isPrefixOf (c :: rest)) with
    | some (pattern, by_) => by_ ++ substituteFrom table (pattern.length - 1) rest
    | none => c :: substituteFrom table 0 rest

/-- The text with every pattern of a table replaced in one pass. -/
def substitute (s : String) (table : List (String × String)) : String :=
  String.ofList (substituteFrom (table.map fun e => (e.1.toList, e.2.toList)) 0 s.toList)

end Text

end Conductor

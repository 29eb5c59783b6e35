import Conductor.Json.Printer

/-!
# Leaves of a value

The scalars of a value, and its empty objects and arrays, each with the path that leads to it.

* `Json.leaves` : the leaves in the order of the text;
* `Json.leafCount` : how many there are.
-/

namespace Conductor

namespace Json

/-- The path to a member. -/
def memberPath (path key : String) : String := if path.isEmpty then key else path ++ "." ++ key

/-- The path to an item. -/
def itemPath (path : String) (index : Nat) : String := path ++ "[" ++ toString index ++ "]"

/-- The name of a leaf; a value that is itself a leaf has the empty path. -/
def leafName (path : String) : String := if path.isEmpty then "value" else path

/-- The text of a leaf: a string itself, any other value as JSON. -/
def leafText : Json → String
  | .string s => s
  | j => j.compact

mutual

/-- The leaves of a value that is reached by a path. -/
def leavesFrom (path : String) : Json → List (String × String)
  | .object (m :: ms) => memberLeaves path (m :: ms)
  | .array (x :: xs) => itemLeaves path 0 (x :: xs)
  | j => [(leafName path, j.leafText)]

/-- The leaves of the members of an object. -/
def memberLeaves (path : String) : List (String × Json) → List (String × String)
  | [] => []
  | (k, x) :: ms => leavesFrom (memberPath path k) x ++ memberLeaves path ms

/-- The leaves of the items of an array, from one index on. -/
def itemLeaves (path : String) (index : Nat) : List Json → List (String × String)
  | [] => []
  | x :: xs => leavesFrom (itemPath path index) x ++ itemLeaves path (index + 1) xs

end

/-- The leaves of a value. -/
def leaves (j : Json) : List (String × String) := leavesFrom "" j

mutual

/-- How many leaves a value has. -/
def leafCount : Json → Nat
  | .object (m :: ms) => memberLeafCount (m :: ms)
  | .array (x :: xs) => itemLeafCount (x :: xs)
  | _ => 1

/-- How many leaves the members have. -/
def memberLeafCount : List (String × Json) → Nat
  | [] => 0
  | (_, x) :: ms => leafCount x + memberLeafCount ms

/-- How many leaves the items have. -/
def itemLeafCount : List Json → Nat
  | [] => 0
  | x :: xs => leafCount x + itemLeafCount xs

end

end Json

end Conductor

import Conductor.Keyed
import Conductor.Number.Shortest

/-!
# JSON values

A JSON value keeps its integers apart from its other numbers: `1` and `1.0` are different values
that are numerically equal. The members of an object are a list; `Json.ofMembers` brings members
into the order of their keys, the last one of a key counting, and every object that is read or
built from data has that order.

* `Json.same` : equality as values, `1` and `1.0` differ;
* `Json.alike` : equality with numbers compared by value;
* `Json.get?` : the value under a key of an object.
-/

namespace Conductor

/-- A JSON number: an integer of at most 64 bits, or a binary number. -/
inductive Number where
  | int (n : Int)
  | float (x : Binary.Finite)
  deriving DecidableEq, Repr, Inhabited

namespace Number

/-- The value of a number. -/
def toRat : Number → Rat
  | .int n => n
  | .float x => x.toRat

/-- The number has no fractional part. -/
def isIntegral : Number → Bool
  | .int _ => true
  | .float x => x.isIntegral

/-- Equality of numbers of the same kind; the two zeros are equal. -/
def same : Number → Number → Bool
  | .int a, .int b => a == b
  | .float a, .float b => a.toRat == b.toRat
  | _, _ => false

/-- Equality by value. -/
def alike (a b : Number) : Bool := a.toRat == b.toRat

/-- The numeral of a number. -/
def render : Number → String
  | .int n => toString n
  | .float x => Binary.double.render x

end Number

/-- A JSON value. -/
inductive Json where
  | null
  | bool (b : Bool)
  | number (n : Number)
  | string (s : String)
  | array (items : List Json)
  | object (members : List (String × Json))
  deriving Repr, Inhabited

namespace Json

/-! ### Equality -/

mutual

/-- Equality of values, numbers being compared by `eq`. -/
def agree (eq : Number → Number → Bool) : Json → Json → Bool
  | .null, .null => true
  | .bool a, .bool b => a == b
  | .number a, .number b => eq a b
  | .string a, .string b => a == b
  | .array a, .array b => agreeItems eq a b
  | .object a, .object b => agreeMembers eq a b
  | _, _ => false

/-- Equality of lists of values. -/
def agreeItems (eq : Number → Number → Bool) : List Json → List Json → Bool
  | [], [] => true
  | a :: as, b :: bs => agree eq a b && agreeItems eq as bs
  | _, _ => false

/-- Equality of lists of members. -/
def agreeMembers (eq : Number → Number → Bool) :
    List (String × Json) → List (String × Json) → Bool
  | [], [] => true
  | (k, a) :: as, (l, b) :: bs => k == l && agree eq a b && agreeMembers eq as bs
  | _, _ => false

end

/-- Equality as values: an integer never equals a number with a fraction or an exponent. -/
def same : Json → Json → Bool := agree Number.same

/-- Equality with numbers compared by value. -/
def alike : Json → Json → Bool := agree Number.alike

/-! ### Parts of a value -/

/-- The integer `n`. -/
def nat (n : Nat) : Json := .number (.int n)

/-- A list of texts. -/
def strings (l : List String) : Json := .array (l.map .string)

/-- The object with the members in the order of their keys; the last member of a key counts. -/
def ofMembers (l : List (String × Json)) : Json := .object (Keyed.ofList l).entries

/-- The object of a table. -/
def ofKeyed (t : Keyed Json) : Json := .object t.entries

/-- The object without members. -/
def emptyObject : Json := .object []

/-- The value under a key, of an object. -/
def get? (j : Json) (k : String) : Option Json :=
  match j with
  | .object ms => ms.lookup k
  | _ => none

/-- The members of an object. -/
def members? : Json → Option (List (String × Json))
  | .object ms => some ms
  | _ => none

/-- The items of an array. -/
def items? : Json → Option (List Json)
  | .array xs => some xs
  | _ => none

/-- The text of a string. -/
def text? : Json → Option String
  | .string s => some s
  | _ => none

/-- The truth value of a boolean. -/
def bool? : Json → Option Bool
  | .bool b => some b
  | _ => none

/-- The natural number that a value is. -/
def nat? : Json → Option Nat
  | .number (.int n) => if 0 ≤ n then some n.toNat else none
  | _ => none

/-- The texts of an array of strings. -/
def texts? : Json → Option (List String)
  | .array xs => xs.mapM text?
  | _ => none

/-- What a function reads from the value under a key. -/
def part? {α : Type} (j : Json) (k : String) (read : Json → Option α) : Option α :=
  (j.get? k).bind read

/-- What a function reads from a value that may be `null`. -/
def optional {α : Type} (read : Json → Option α) : Json → Option (Option α)
  | .null => some none
  | j => (read j).map some

/-- The value, or `null` for none. -/
def ofOption {α : Type} (write : α → Json) : Option α → Json
  | none => .null
  | some a => write a

/-- The value is `null`. -/
def isNull : Json → Bool
  | .null => true
  | _ => false

/-- The value is an object. -/
def isObject : Json → Bool
  | .object _ => true
  | _ => false

/-! ### Order of members -/

mutual

/-- Every object in the value has its members in strictly increasing order of keys. -/
def Ordered : Json → Prop
  | .array xs => OrderedItems xs
  | .object ms => KeyOrdered ms ∧ OrderedMembers ms
  | _ => True

/-- `Ordered` of every item. -/
def OrderedItems : List Json → Prop
  | [] => True
  | x :: xs => Ordered x ∧ OrderedItems xs

/-- `Ordered` of every member. -/
def OrderedMembers : List (String × Json) → Prop
  | [] => True
  | (_, x) :: ms => Ordered x ∧ OrderedMembers ms

end

/-! ### Depth -/

mutual

/-- How many brackets are open at the deepest place of the text of a value. -/
def depth : Json → Nat
  | .array xs => 1 + depthItems xs
  | .object ms => 1 + depthMembers ms
  | _ => 0

/-- The greatest depth of the items. -/
def depthItems : List Json → Nat
  | [] => 0
  | x :: xs => max (depth x) (depthItems xs)

/-- The greatest depth of the members. -/
def depthMembers : List (String × Json) → Nat
  | [] => 0
  | (_, x) :: ms => max (depth x) (depthMembers ms)

end

end Json

end Conductor

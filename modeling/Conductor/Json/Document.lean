import Conductor.Json.Basic

/-!
# JSON as written

A `Document` is a JSON text taken apart but not yet judged: members in the order of the text, with
repetitions, and with the places that an error message needs. A fault stands in the document where
it was found, so a decoder that walks through a document meets bad data and bad syntax in the order
of the text. What stands behind a fault is not read, except behind the value of a member: a decoder
that does not look at that value goes on behind it.

A document can also be made of a value; it then has no places.

* `Document.value` : the value of a document, or its first fault;
* `Document.ofJson` : the document of a value;
* `Fault.message` : the wording of a fault.
-/

namespace Conductor

namespace Json

/-- What can be wrong with a JSON text. -/
inductive Fault where
  | endInValue
  | endInString
  | endInList
  | endInObject
  | expectedValue
  | expectedIdent
  | expectedColon
  | expectedCommaOrBrace
  | expectedCommaOrBracket
  | keyMustBeString
  | trailingComma
  | trailingCharacters
  | invalidNumber
  | numberOutOfRange
  | invalidEscape
  | controlCharacter
  | loneSurrogate
  | endOfHexEscape
  | tooDeep
  deriving DecidableEq, Repr, Inhabited

/-- The wording of a fault. -/
def Fault.message : Fault → String
  | .endInValue => "EOF while parsing a value"
  | .endInString => "EOF while parsing a string"
  | .endInList => "EOF while parsing a list"
  | .endInObject => "EOF while parsing an object"
  | .expectedValue => "expected value"
  | .expectedIdent => "expected ident"
  | .expectedColon => "expected `:`"
  | .expectedCommaOrBrace => "expected `,` or `\x7d`"
  | .expectedCommaOrBracket => "expected `,` or `]`"
  | .keyMustBeString => "key must be a string"
  | .trailingComma => "trailing comma"
  | .trailingCharacters => "trailing characters"
  | .invalidNumber => "invalid number"
  | .numberOutOfRange => "number out of range"
  | .invalidEscape => "invalid escape"
  | .controlCharacter => "control character (\\u0000-\\u001F) found while parsing a string"
  | .loneSurrogate => "lone leading surrogate in hex escape"
  | .endOfHexEscape => "unexpected end of hex escape"
  | .tooDeep => "recursion limit exceeded"

/-- A place in a text: the line, from one, and the bytes read on it. -/
structure Mark where
  line : Nat
  column : Nat
  deriving DecidableEq, Repr, Inhabited

/-- The place as it stands at the end of a message. -/
def Mark.render (m : Mark) : String :=
  " at line " ++ toString m.line ++ " column " ++ toString m.column

/-- Where a part of a text starts and the place behind it. -/
structure Span where
  before : Mark
  after : Mark
  deriving DecidableEq, Repr, Inhabited

/-- A fault and its place. -/
structure Misreading where
  fault : Fault
  mark : Mark
  deriving DecidableEq, Repr, Inhabited

/-- The message of a misread text. -/
def Misreading.message (e : Misreading) : String := e.fault.message ++ e.mark.render

/-- A value without parts. -/
inductive Scalar where
  | null
  | bool (b : Bool)
  | number (n : Number)
  | string (s : String)
  deriving DecidableEq, Repr, Inhabited

/-- A scalar as a value. -/
def Scalar.toJson : Scalar → Json
  | .null => .null
  | .bool b => .bool b
  | .number n => .number n
  | .string s => .string s

mutual

/-- A value as written. `place` is where a scalar stands, `before` the place of an opening
bracket. -/
inductive Document where
  | scalar (value : Scalar) (place : Option Span)
  | list (before : Option Mark) (items : Items)
  | object (before : Option Mark) (members : Members)
  | broken (e : Misreading)

/-- The items up to the closing bracket or to a fault. `settled` is the place that is reached when
the list is left after an item. -/
inductive Items where
  | close (after : Option Mark)
  | cut (e : Misreading)
  | cons (item : Document) (settled : Option Mark) (rest : Items)

/-- The members up to the closing brace or to a fault. The fault of a value stands in the value; only
if the value cannot be passed over either, the members end behind it. -/
inductive Members where
  | close (after : Option Mark)
  | cut (e : Misreading)
  | cons (key : String) (afterKey : Option Mark) (value : Document) (settled : Option Mark)
      (rest : Members)

end

instance : Inhabited Document := ⟨.scalar .null none⟩

/-! ### Values -/

mutual

/-- The value of a document, or its first fault. -/
def Document.value : Document → Except Misreading Json
  | .scalar v _ => .ok v.toJson
  | .list _ items => do return .array (← items.values)
  | .object _ members => do return .ofMembers (← members.values)
  | .broken e => .error e

/-- The values of the items. -/
def Items.values : Items → Except Misreading (List Json)
  | .close _ => .ok []
  | .cut e => .error e
  | .cons item _ rest => do
    let v ← item.value
    return v :: (← rest.values)

/-- The members with their values. -/
def Members.values : Members → Except Misreading (List (String × Json))
  | .close _ => .ok []
  | .cut e => .error e
  | .cons key _ value _ rest => do
    let v ← value.value
    return (key, v) :: (← rest.values)

end

mutual

/-- The document of a value; it has no places. -/
def Document.ofJson : Json → Document
  | .null => .scalar .null none
  | .bool b => .scalar (.bool b) none
  | .number n => .scalar (.number n) none
  | .string s => .scalar (.string s) none
  | .array xs => .list none (Items.ofJson xs)
  | .object ms => .object none (Members.ofJson ms)

/-- The items of a list of values. -/
def Items.ofJson : List Json → Items
  | [] => .close none
  | x :: xs => .cons (Document.ofJson x) none (Items.ofJson xs)

/-- The members of a list of members. -/
def Members.ofJson : List (String × Json) → Members
  | [] => .close none
  | (k, x) :: ms => .cons k none (Document.ofJson x) none (Members.ofJson ms)

end

/-! ### Parts -/

/-- How many items there are. -/
def Items.length : Items → Nat
  | .close _ => 0
  | .cut _ => 0
  | .cons _ _ rest => rest.length + 1

mutual

/-- The document without its places. -/
def Document.unmarked : Document → Document
  | .scalar v _ => .scalar v none
  | .list _ items => .list none items.unmarked
  | .object _ members => .object none members.unmarked
  | .broken e => .broken e

/-- The items without their places. -/
def Items.unmarked : Items → Items
  | .close _ => .close none
  | .cut e => .cut e
  | .cons item _ rest => .cons item.unmarked none rest.unmarked

/-- The members without their places. -/
def Members.unmarked : Members → Members
  | .close _ => .close none
  | .cut e => .cut e
  | .cons key _ value _ rest => .cons key none value.unmarked none rest.unmarked

end

end Json

end Conductor

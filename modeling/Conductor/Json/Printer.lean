import Conductor.Json.Basic

/-!
# Printing JSON

Two layouts of one text: without any white space, or with every item and member on a line of its
own, two spaces further in than its parent. Only the quotation mark, the backslash and the control
characters below the space are escaped.

* `Json.compact` : the text without white space;
* `Json.pretty` : the text in lines; an empty array or object stays on one line.
-/

namespace Conductor

namespace Json

/-- The lower-case hexadecimal digit of a number below sixteen. -/
def hexDigit (n : Nat) : Char := (Nat.digitChar n)

/-- The text of one character inside a string. -/
def escapeChar (c : Char) : List Char :=
  if c = '"' then ['\\', '"']
  else if c = '\\' then ['\\', '\\']
  else if c.toNat = 0x08 then ['\\', 'b']
  else if c.toNat = 0x09 then ['\\', 't']
  else if c.toNat = 0x0A then ['\\', 'n']
  else if c.toNat = 0x0C then ['\\', 'f']
  else if c.toNat = 0x0D then ['\\', 'r']
  else if c.toNat < 0x20 then
    ['\\', 'u', '0', '0', hexDigit (c.toNat / 16), hexDigit (c.toNat % 16)]
  else [c]

/-- The characters of a string between quotation marks. -/
def quoteChars (s : String) : List Char := '"' :: s.toList.flatMap escapeChar ++ ['"']

mutual

/-- The characters of a value without white space. -/
def compactChars : Json → List Char
  | .null => "null".toList
  | .bool b => if b then "true".toList else "false".toList
  | .number n => n.render.toList
  | .string s => quoteChars s
  | .array xs => '[' :: compactItems xs ++ [']']
  | .object ms => '{' :: compactMembers ms ++ ['}']

/-- The items with commas between them. -/
def compactItems : List Json → List Char
  | [] => []
  | [x] => compactChars x
  | x :: xs => compactChars x ++ ',' :: compactItems xs

/-- The members with commas between them. -/
def compactMembers : List (String × Json) → List Char
  | [] => []
  | [(k, x)] => quoteChars k ++ ':' :: compactChars x
  | (k, x) :: ms => quoteChars k ++ ':' :: compactChars x ++ ',' :: compactMembers ms

end

/-- The text of a value without white space. -/
def compact (j : Json) : String := String.ofList (compactChars j)

/-- A line feed and the indentation of a level. -/
def newLine (level : Nat) : List Char := '\n' :: List.replicate (2 * level) ' '

mutual

/-- The characters of a value in lines, inside `level` open brackets. -/
def prettyChars (level : Nat) : Json → List Char
  | .array [] => ['[', ']']
  | .object [] => ['{', '}']
  | .array (x :: xs) => '[' :: prettyItems (level + 1) (x :: xs) ++ newLine level ++ [']']
  | .object (m :: ms) => '{' :: prettyMembers (level + 1) (m :: ms) ++ newLine level ++ ['}']
  | .null => "null".toList
  | .bool b => if b then "true".toList else "false".toList
  | .number n => n.render.toList
  | .string s => quoteChars s

/-- The items, each on a line of its own. -/
def prettyItems (level : Nat) : List Json → List Char
  | [] => []
  | [x] => newLine level ++ prettyChars level x
  | x :: xs => newLine level ++ prettyChars level x ++ ',' :: prettyItems level xs

/-- The members, each on a line of its own. -/
def prettyMembers (level : Nat) : List (String × Json) → List Char
  | [] => []
  | [(k, x)] => newLine level ++ quoteChars k ++ ':' :: ' ' :: prettyChars level x
  | (k, x) :: ms =>
    newLine level ++ quoteChars k ++ ':' :: ' ' :: prettyChars level x ++ ',' ::
      prettyMembers level ms

end

/-- The text of a value in lines. -/
def pretty (j : Json) : String := String.ofList (prettyChars 0 j)

end Json

end Conductor

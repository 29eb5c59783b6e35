import Conductor.Text.Blank

/-!
# Code fences

A reply may stand between fences of three backticks, the first one followed by the name of a
language. `stripFence` gives what stands between them; a text without fences is only trimmed.

* `stripFenceChars` : the text between the fences, without white space at its ends.
-/

namespace Conductor

namespace Text

/-- Three backticks. -/
def fence : List Char := ['`', '`', '`']

/-- A character of the name of a language. -/
def isInfoChar (c : Char) : Bool :=
  ('a' ≤ c && c ≤ 'z') || ('A' ≤ c && c ≤ 'Z') || ('0' ≤ c && c ≤ '9') || c == '_' || c == '-'

/-- A space or a tab. -/
def isGap (c : Char) : Bool := c == ' ' || c == '\t'

/-- The characters after one line end, if there is one. -/
def dropLineEnd : List Char → List Char
  | '\r' :: '\n' :: rest => rest
  | '\r' :: rest => rest
  | '\n' :: rest => rest
  | rest => rest

/-- The characters after the line of the opening fence. -/
def afterOpening? (cs : List Char) : Option (List Char) :=
  if fence.isPrefixOf cs then
    some (dropLineEnd (((cs.drop 3).dropWhile isInfoChar).dropWhile isGap))
  else none

/-- The characters before the closing fence. -/
def beforeClosing? (cs : List Char) : Option (List Char) :=
  if fence.isSuffixOf cs then some (cs.take (cs.length - 3)) else none

/-- The characters between the fences, or all of them; trimmed. -/
def stripFenceChars (cs : List Char) : List Char :=
  let trimmed := trimChars cs
  match afterOpening? trimmed >>= beforeClosing? with
  | some body => trimChars body
  | none => trimmed

/-- The text between the fences, or all of it; trimmed. -/
def stripFence (s : String) : String := String.ofList (stripFenceChars s.toList)

end Text

end Conductor

import Conductor.Text.Blank

/-!
# Excerpts

Parts of a text: its first characters, its first line, its first sentence. A length is a number of
characters.

* `cut` : the first characters and whether any are missing;
* `clip` : the same as one text, with a mark where characters are missing;
* `firstSentence` : the first line up to its first full stop before a space.
-/

namespace Conductor

namespace Text

/-- The start of a text, and whether the rest is missing. -/
structure Cut where
  text : String
  truncated : Bool
  deriving DecidableEq, Repr

/-- The first `max` characters. -/
def cut (s : String) (max : Nat) : Cut :=
  if max < s.toList.length then ⟨String.ofList (s.toList.take max), true⟩ else ⟨s, false⟩

/-- The text itself, or its start with a mark behind it. -/
def Cut.marked (c : Cut) (mark : String) : String := if c.truncated then c.text ++ mark else c.text

/-- The first `max` characters, with the mark behind them if any are missing. -/
def clip (s : String) (max : Nat) (mark : String) : String := (cut s max).marked mark

/-- The characters before the first line feed, less one carriage return before it. -/
def firstLineChars (cs : List Char) : List Char :=
  let line := cs.takeWhile (· ≠ '\n')
  if line.length < cs.length ∧ line.getLast? = some '\r' then line.dropLast else line

/-- The characters up to and with the first full stop before a space. -/
def sentenceChars : List Char → List Char
  | [] => []
  | c :: rest => if c = '.' ∧ rest.head? = some ' ' then ['.'] else c :: sentenceChars rest

/-- The first sentence of the first line of the trimmed text. -/
def firstSentence (s : String) : String :=
  String.ofList (sentenceChars (firstLineChars (trimChars s.toList)))

end Text

end Conductor

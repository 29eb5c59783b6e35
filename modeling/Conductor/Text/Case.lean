import Conductor.Text.CaseTable

/-!
# Lower case

A text in small letters. A capital becomes its small letter, the dotted capital I becomes an i and
a combining dot, and a capital sigma becomes the final form at the end of a word.

* `lowerChars` : the small letters of a list of characters;
* `lower` : the same of a text.
-/

namespace Conductor

namespace Text

/-- The small form of one character, without regard to its neighbours. -/
def lowerChar (c : Char) : List Char :=
  let n := c.toNat
  if n < 0x80 then [if 'A' ≤ c ∧ c ≤ 'Z' then Char.ofNat (n + 32) else c]
  else if n = 0x130 then ['i', Char.ofNat 0x307]
  else match lowerRuns.find? (·.holds n) with
    | some r => [Char.ofNat ((n : Int) + r.shift).toNat]
    | none => [c]

/-- The letter has case and counts inside a word. -/
def isCased (c : Char) : Bool := casedRuns.any (·.holds c.toNat)

/-- The character is passed over when the end of a word is looked for. -/
def isCaseIgnorable (c : Char) : Bool := caseIgnorableRuns.any (·.holds c.toNat)

/-- The first character that counts is a letter with case. -/
def startsCased (cs : List Char) : Bool :=
  match cs.dropWhile isCaseIgnorable with
  | c :: _ => isCased c
  | [] => false

/-- The small letters of the characters that follow `before`, which is given backwards. -/
def lowerAfter (before : List Char) : List Char → List Char
  | [] => []
  | c :: rest =>
    let small :=
      if c.toNat = 0x3A3 then
        [Char.ofNat (if startsCased before && !startsCased rest then 0x3C2 else 0x3C3)]
      else lowerChar c
    small ++ lowerAfter (c :: before) rest

/-- The small letters of a list of characters. -/
def lowerChars (cs : List Char) : List Char := lowerAfter [] cs

/-- The text in small letters. -/
def lower (s : String) : String := String.ofList (lowerChars s.toList)

/-- The text starts with the two letters `O` and `K`, in capitals or not. No other character has an
upper-case form that starts with one of them. -/
def startsWithOk (s : String) : Bool :=
  match s.toList with
  | a :: b :: _ => (a == 'o' || a == 'O') && (b == 'k' || b == 'K')
  | _ => false

end Text

end Conductor

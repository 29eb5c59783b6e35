import Conductor.Number.Decimal

/-!
# Quoted texts of TOML

Four kinds of quoted text: with escapes or as it stands, on one line or on several. Every reader
here starts behind the opening quotation marks and ends behind the closing ones.

* `Toml.takeEscaped`, `Toml.takeLiteral` : a text on one line;
* `Toml.takeEscapedLines`, `Toml.takeLiteralLines` : a text on several lines, in which two
  quotation marks more may stand before the closing three.
-/

namespace Conductor

namespace Toml

/-- The character may stand in a text or in a comment. -/
def isWritable (c : Char) : Bool :=
  c == '\t' || (0x20 ≤ c.toNat && c.toNat ≤ 0x7E) || 0x80 ≤ c.toNat

/-- A space or a tab. -/
def isGap (c : Char) : Bool := c == ' ' || c == '\t'

/-- The characters behind a line break, if one comes next. -/
def lineBreak? : List Char → Option (List Char)
  | '\n' :: rest => some rest
  | '\r' :: '\n' :: rest => some rest
  | _ => none

/-- The character with a hexadecimal number. -/
def charOfHex? (ds : List Char) : Option Char := do
  let n ← Decimal.inBase? 16 ds
  if n.isValidChar then some (Char.ofNat n) else none

/-- The character that a letter after a backslash stands for. -/
def escaped? (c : Char) : Option Char :=
  if c = 'b' then some (Char.ofNat 8)
  else if c = 't' then some '\t'
  else if c = 'n' then some '\n'
  else if c = 'f' then some (Char.ofNat 12)
  else if c = 'r' then some '\r'
  else if c = '"' then some '"'
  else if c = '\\' then some '\\'
  else none

/-- A quoted text, given backwards as far as it has been read, and what is left. -/
def done (acc rest : List Char) : Option (String × List Char) :=
  some (String.ofList acc.reverse, rest)

/-- A text with escapes on one line; `acc` holds what has been read, backwards. -/
def takeEscaped (acc : List Char) : List Char → Option (String × List Char)
  | [] => none
  | '\\' :: 'u' :: a :: b :: c :: d :: rest => do
    takeEscaped ((← charOfHex? [a, b, c, d]) :: acc) rest
  | '\\' :: 'U' :: a :: b :: c :: d :: e :: f :: g :: h :: rest => do
    takeEscaped ((← charOfHex? [a, b, c, d, e, f, g, h]) :: acc) rest
  | '\\' :: c :: rest => do takeEscaped ((← escaped? c) :: acc) rest
  | c :: rest =>
    if c = '"' then done acc rest
    else if c ≠ '\\' && isWritable c then takeEscaped (c :: acc) rest
    else none

/-- A text as it stands on one line. -/
def takeLiteral (acc : List Char) : List Char → Option (String × List Char)
  | [] => none
  | c :: rest =>
    if c = '\'' then done acc rest
    else if isWritable c then takeLiteral (c :: acc) rest
    else none

/-- A text with escapes on several lines. While `joining`, white space and line breaks are passed
over: a backslash at the end of a line joins it with the next text. -/
def takeEscapedLines (joining : Bool) (acc : List Char) : List Char → Option (String × List Char)
  | [] => none
  | '\r' :: '\n' :: rest =>
    takeEscapedLines joining (if joining then acc else '\n' :: acc) rest
  | '"' :: '"' :: '"' :: '"' :: '"' :: rest => done ('"' :: '"' :: acc) rest
  | '"' :: '"' :: '"' :: '"' :: rest => done ('"' :: acc) rest
  | '"' :: '"' :: '"' :: rest => done acc rest
  | '\\' :: 'u' :: a :: b :: c :: d :: rest => do
    takeEscapedLines false ((← charOfHex? [a, b, c, d]) :: acc) rest
  | '\\' :: 'U' :: a :: b :: c :: d :: e :: f :: g :: h :: rest => do
    takeEscapedLines false ((← charOfHex? [a, b, c, d, e, f, g, h]) :: acc) rest
  | '\\' :: c :: rest =>
    match escaped? c with
    | some x => takeEscapedLines false (x :: acc) rest
    | none =>
      if (lineBreak? ((c :: rest).dropWhile isGap)).isSome then
        takeEscapedLines true acc (c :: rest)
      else none
  | c :: rest =>
    if joining && (isGap c || c == '\n') then takeEscapedLines true acc rest
    else if c = '\n' || (c ≠ '\\' && isWritable c) then takeEscapedLines false (c :: acc) rest
    else none
termination_by cs => cs.length

/-- A text as it stands on several lines. -/
def takeLiteralLines (acc : List Char) : List Char → Option (String × List Char)
  | [] => none
  | '\r' :: '\n' :: rest => takeLiteralLines ('\n' :: acc) rest
  | '\'' :: '\'' :: '\'' :: '\'' :: '\'' :: rest => done ('\'' :: '\'' :: acc) rest
  | '\'' :: '\'' :: '\'' :: '\'' :: rest => done ('\'' :: acc) rest
  | '\'' :: '\'' :: '\'' :: rest => done acc rest
  | c :: rest =>
    if c = '\n' || isWritable c then takeLiteralLines (c :: acc) rest else none

/-- The characters without a line break in front. -/
def withoutBreak (cs : List Char) : List Char := (lineBreak? cs).getD cs

/-- A quoted text on one line. -/
def takeQuoted : List Char → Option (String × List Char)
  | '"' :: rest => takeEscaped [] rest
  | '\'' :: rest => takeLiteral [] rest
  | _ => none

/-- A quoted text on one line or on several, where a line break at its very start is left out. -/
def takeText : List Char → Option (String × List Char)
  | '"' :: '"' :: '"' :: rest => takeEscapedLines false [] (withoutBreak rest)
  | '\'' :: '\'' :: '\'' :: rest => takeLiteralLines [] (withoutBreak rest)
  | cs => takeQuoted cs

end Toml

end Conductor

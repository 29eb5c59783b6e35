import Conductor.Json.Document
import Conductor.Number.Decimal

/-!
# Reading JSON

A text is read from left to right into a `Document`. A place counts bytes, so a character outside
ASCII moves the column by more than one; a fault that is found by looking at the next character
counts its first byte. At most 127 brackets may be open at once.

A value may also be passed over. Then its brackets, words and numerals must be in order, but what they
stand for does not matter: a number may be out of range, the escapes of a string need not make up
characters, and any number of brackets may be open.

* `passValue` : what is left behind a value that is passed over;
* `Document.read` : the document of a text, and what is wrong behind it;
* `Json.parse` : the value of a text.
-/

namespace Conductor

namespace Json

open Decimal (isDigit hexValue valueOf)

/-! ### Places -/

/-- The place after a character. -/
def Mark.past (m : Mark) (c : Char) : Mark :=
  if c = '\n' then ⟨m.line + 1, 0⟩ else ⟨m.line, m.column + c.utf8Size⟩

/-- The place after the first byte of a character. -/
def Mark.pastByte (m : Mark) (c : Char) : Mark :=
  if c = '\n' then ⟨m.line + 1, 0⟩ else ⟨m.line, m.column + 1⟩

/-- The place after `n` columns of a line. -/
def Mark.along (m : Mark) (n : Nat) : Mark := ⟨m.line, m.column + n⟩

/-- The place after some characters. -/
def Mark.pastAll (m : Mark) (cs : List Char) : Mark := cs.foldl Mark.past m

/-- The place after the first `n` bytes of some characters. -/
def Mark.pastBytes (m : Mark) : Nat → List Char → Mark
  | _, [] => m
  | n, c :: rest =>
    if n = 0 then m
    else if c.utf8Size ≤ n then (m.past c).pastBytes (n - c.utf8Size) rest
    else m.along n

/-- The place that a look at the next character counts. -/
def Mark.look (m : Mark) : List Char → Mark
  | [] => m
  | c :: _ => m.pastByte c

/-- What is left of a text and the place reached. -/
structure Cursor where
  rest : List Char
  mark : Mark
  deriving Inhabited

/-- The cursor at the start of a text. -/
def Cursor.start (s : String) : Cursor := ⟨s.toList, ⟨1, 0⟩⟩

/-- JSON's white space. -/
def isSpace (c : Char) : Bool := c == ' ' || c == '\n' || c == '\t' || c == '\r'

/-- The cursor after white space. -/
def skipSpace (m : Mark) : List Char → Cursor
  | [] => ⟨[], m⟩
  | c :: rest => if isSpace c then skipSpace (m.past c) rest else ⟨c :: rest, m⟩

/-- The cursor after white space. -/
def Cursor.skip (c : Cursor) : Cursor := skipSpace c.mark c.rest

/-! ### Strings -/

/-- The value of four hexadecimal digits. -/
def hexCode (a b c d : Char) : Option Nat := do
  return (((← hexValue a) * 16 + (← hexValue b)) * 16 + (← hexValue c)) * 16 + (← hexValue d)

/-- The character that a letter after a backslash stands for. -/
def simpleEscape (c : Char) : Option Char :=
  if c = '"' then some '"'
  else if c = '\\' then some '\\'
  else if c = '/' then some '/'
  else if c = 'b' then some (Char.ofNat 8)
  else if c = 'f' then some (Char.ofNat 12)
  else if c = 'n' then some '\n'
  else if c = 'r' then some '\r'
  else if c = 't' then some '\t'
  else none

/-- The fault of a hexadecimal escape whose four bytes are missing or are no digits. -/
def hexFault (m : Mark) (cs : List Char) : Misreading :=
  if (String.ofList cs).utf8ByteSize < 4 then ⟨.endInString, m.pastAll cs⟩
  else ⟨.invalidEscape, m.pastBytes 4 cs⟩

/-- The first half of a surrogate pair. -/
def isHighSurrogate (n : Nat) : Bool := 0xD800 ≤ n && n ≤ 0xDBFF

/-- The second half of a surrogate pair. -/
def isLowSurrogate (n : Nat) : Bool := 0xDC00 ≤ n && n ≤ 0xDFFF

/-- What stands where the second half of a surrogate pair is missing; `m` is the place behind the
first half. -/
def pairFault (m : Mark) : List Char → Misreading
  | [] => ⟨.endInString, m⟩
  | '\\' :: [] => ⟨.endInString, m.along 1⟩
  | '\\' :: c :: cs =>
    if c = 'u' then hexFault (m.along 2) cs else ⟨.endOfHexEscape, (m.along 1).pastByte c⟩
  | c :: _ => ⟨.endOfHexEscape, m.pastByte c⟩

/-- Reads a string behind its opening quotation mark; `acc` holds what has been read, backwards. -/
def readStringChars (m : Mark) (acc : List Char) :
    List Char → Except Misreading (String × Cursor)
  | [] => .error ⟨.endInString, m⟩
  | '\\' :: 'u' :: a :: b :: c :: d :: rest =>
    match hexCode a b c d with
    | none => .error (hexFault (m.along 2) (a :: b :: c :: d :: rest))
    | some n =>
      if isLowSurrogate n then .error ⟨.loneSurrogate, m.along 6⟩
      else if isHighSurrogate n then
        match rest with
        | '\\' :: 'u' :: a' :: b' :: c' :: d' :: rest' =>
          match hexCode a' b' c' d' with
          | none => .error (pairFault (m.along 6) rest)
          | some n' =>
            if isLowSurrogate n' then
              readStringChars (m.along 12)
                (Char.ofNat (0x10000 + (n - 0xD800) * 0x400 + (n' - 0xDC00)) :: acc) rest'
            else .error ⟨.loneSurrogate, m.along 12⟩
        | _ => .error (pairFault (m.along 6) rest)
      else readStringChars (m.along 6) (Char.ofNat n :: acc) rest
  | '\\' :: 'u' :: rest => .error (hexFault (m.along 2) rest)
  | '\\' :: c :: rest =>
    match simpleEscape c with
    | some x => readStringChars (m.along 2) (x :: acc) rest
    | none => .error ⟨.invalidEscape, (m.along 1).pastByte c⟩
  | c :: rest =>
    if c = '"' then .ok (String.ofList acc.reverse, ⟨rest, m.along 1⟩)
    else if c = '\\' then .error ⟨.endInString, m.along 1⟩
    else if c.toNat < 0x20 then .error ⟨.controlCharacter, m.pastByte c⟩
    else readStringChars (m.past c) (c :: acc) rest

/-- A quotation mark closes the string. -/
theorem readStringChars_quote {m : Mark} {acc rest : List Char} :
    readStringChars m acc ('"' :: rest) = .ok (String.ofList acc.reverse, ⟨rest, m.along 1⟩) := by
  rw [readStringChars, if_pos rfl]
  all_goals simp

/-! ### Numbers -/

/-- The integer with the given sign, if it has at most 64 bits, and otherwise the nearest binary
number. Minus zero is a binary number. -/
def integerOf (negative : Bool) (n : Nat) : Option Number :=
  let inRange := if negative then decide (0 < n ∧ n ≤ Nat.pow 2 63) else decide (n < Nat.pow 2 64)
  if inRange then some (.int (if negative then -(n : Int) else n))
  else match Binary.double.round negative n 1 with
    | .finite x => some (.float x)
    | _ => none

/-- How many exponent digits are read before the exponent leaves 32 bits. -/
def exponentWidth (ds : List Char) : Nat :=
  let fits := (List.range (ds.length + 1)).filter fun k => valueOf (ds.take k) < Nat.pow 2 31
  min ds.length fits.length

/-- The exponent behind its letter: its value, its width, and what is left. -/
def readExponent (m : Mark) (cs : List Char) : Except Misreading (Bool × List Char × Cursor) :=
  let (negative, m, cs) := match cs with
    | '-' :: r => (true, m.along 1, r)
    | '+' :: r => (false, m.along 1, r)
    | r => (false, m, r)
  match cs with
  | [] => .error ⟨.endInValue, m⟩
  | c :: _ =>
    if isDigit c then
      let ds := cs.takeWhile isDigit
      .ok (negative, ds, ⟨cs.dropWhile isDigit, m.along ds.length⟩)
    else .error ⟨.invalidNumber, m.pastByte c⟩

/-- The number with the given digits before and after the point, behind which an exponent may
stand. -/
def readScaled (negative : Bool) (whole fraction : List Char) (isPlain : Bool) (m : Mark)
    (cs : List Char) : Except Misreading (Number × Cursor) :=
  let digits := valueOf (whole ++ fraction)
  let scaled (e : Int) (overflow : Mark) (c : Cursor) : Except Misreading (Number × Cursor) :=
    match Binary.double.ofDecimal negative digits (e - (fraction.length : Int)) with
    | .finite x => .ok (.float x, c)
    | _ => .error ⟨.numberOutOfRange, overflow⟩
  match cs with
  | c :: rest =>
    if c = 'e' ∨ c = 'E' then do
      let (below, ds, after) ← readExponent (m.along 1) rest
      let e : Int := if below then -(valueOf ds : Int) else valueOf ds
      let excess := ds.length - exponentWidth ds
      scaled e ⟨after.mark.line, after.mark.column - excess⟩ after
    else plain ⟨c :: rest, m⟩ scaled
  | [] => plain ⟨[], m⟩ scaled
where
  /-- The number without an exponent. -/
  plain (c : Cursor)
      (scaled : Int → Mark → Cursor → Except Misreading (Number × Cursor)) :
      Except Misreading (Number × Cursor) :=
    if isPlain then
      match integerOf negative (valueOf whole) with
      | some n => .ok (n, c)
      | none => .error ⟨.numberOutOfRange, c.mark⟩
    else scaled 0 c.mark c

/-- Reads a number behind its sign. -/
def readNumber (negative : Bool) (m : Mark) (cs : List Char) :
    Except Misreading (Number × Cursor) :=
  match cs with
  | [] => .error ⟨.endInValue, m⟩
  | c :: r =>
    if !isDigit c then .error ⟨.invalidNumber, m.pastByte c⟩
    else if c = '0' ∧ (r.head?.map isDigit) = some true then
      .error ⟨.invalidNumber, (m.along 1).look r⟩
    else
      let whole := cs.takeWhile isDigit
      let m := m.along whole.length
      match cs.dropWhile isDigit with
      | '.' :: r =>
        let fraction := r.takeWhile isDigit
        let r' := r.dropWhile isDigit
        let m := m.along 1
        if fraction.isEmpty then
          .error ⟨if r'.isEmpty then .endInValue else .invalidNumber, m.look r'⟩
        else readScaled negative whole fraction false (m.along fraction.length) r'
      | r => readScaled negative whole [] true m r

/-! ### Words -/

/-- Reads the letters of `true`, `false` or `null` behind the first one. -/
def readIdent (m : Mark) : List Char → List Char → Except Misreading Cursor
  | [], cs => .ok ⟨cs, m⟩
  | _ :: _, [] => .error ⟨.endInValue, m⟩
  | w :: ws, c :: cs =>
    if c = w then readIdent (m.along 1) ws cs else .error ⟨.expectedIdent, m.pastByte c⟩

/-! ### Values that are passed over -/

/-- Passes over a string behind its opening quotation mark. -/
def passString (m : Mark) : List Char → Except Misreading Cursor
  | [] => .error ⟨.endInString, m⟩
  | '\\' :: 'u' :: a :: b :: c :: d :: rest =>
    if (hexCode a b c d).isSome then passString (m.along 6) rest
    else .error (hexFault (m.along 2) (a :: b :: c :: d :: rest))
  | '\\' :: 'u' :: rest => .error (hexFault (m.along 2) rest)
  | '\\' :: c :: rest =>
    if (simpleEscape c).isSome then passString (m.along 2) rest
    else .error ⟨.invalidEscape, (m.along 1).pastByte c⟩
  | c :: rest =>
    if c = '"' then .ok ⟨rest, m.along 1⟩
    else if c = '\\' then .error ⟨.endInString, m.along 1⟩
    else if c.toNat < 0x20 then .error ⟨.controlCharacter, m⟩
    else passString (m.past c) rest

/-- Passes over the digits of an exponent. -/
def passDigits (m : Mark) (cs : List Char) : Except Misreading Cursor :=
  match cs with
  | [] => .error ⟨.invalidNumber, m⟩
  | c :: _ =>
    if isDigit c then .ok ⟨cs.dropWhile isDigit, m.along (cs.takeWhile isDigit).length⟩
    else .error ⟨.invalidNumber, m.pastByte c⟩

/-- Passes over an exponent behind its letter. -/
def passExponent (m : Mark) : List Char → Except Misreading Cursor
  | '-' :: r => passDigits (m.along 1) r
  | '+' :: r => passDigits (m.along 1) r
  | r => passDigits m r

/-- Passes over an exponent, if there is one. -/
def passScale (m : Mark) : List Char → Except Misreading Cursor
  | [] => .ok ⟨[], m⟩
  | c :: rest =>
    if c = 'e' ∨ c = 'E' then passExponent (m.along 1) rest else .ok ⟨c :: rest, m⟩

/-- Passes over a number behind its sign. -/
def passNumber (m : Mark) (cs : List Char) : Except Misreading Cursor :=
  match cs with
  | [] => .error ⟨.invalidNumber, m⟩
  | c :: r =>
    if !isDigit c then .error ⟨.invalidNumber, m.pastByte c⟩
    else if c = '0' ∧ (r.head?.map isDigit) = some true then
      .error ⟨.invalidNumber, (m.along 1).look r⟩
    else
      let m := m.along (cs.takeWhile isDigit).length
      match cs.dropWhile isDigit with
      | '.' :: r =>
        let m := m.along 1
        let r' := r.dropWhile isDigit
        if (r.takeWhile isDigit).isEmpty then .error ⟨.invalidNumber, m.look r'⟩
        else passScale (m.along (r.takeWhile isDigit).length) r'
      | r => passScale m r

mutual

/-- Passes over a value, however deeply it is nested. -/
def passValue (fuel : Nat) (c : Cursor) : Except Misreading Cursor :=
  match fuel with
  | 0 => .error ⟨.endInValue, c.mark⟩
  | fuel + 1 =>
    let c := c.skip
    match c.rest with
    | [] => .error ⟨.endInValue, c.mark⟩
    | x :: rest =>
      if x = 'n' then readIdent (c.mark.along 1) ['u', 'l', 'l'] rest
      else if x = 't' then readIdent (c.mark.along 1) ['r', 'u', 'e'] rest
      else if x = 'f' then readIdent (c.mark.along 1) ['a', 'l', 's', 'e'] rest
      else if x = '-' then passNumber (c.mark.along 1) rest
      else if isDigit x then passNumber c.mark c.rest
      else if x = '"' then passString (c.mark.along 1) rest
      else if x = '[' then passItems fuel true ⟨rest, c.mark.along 1⟩
      else if x = '\x7b' then passMembers fuel true ⟨rest, c.mark.along 1⟩
      else .error ⟨.expectedValue, c.mark.pastByte x⟩

/-- Passes over the items of a list behind its opening bracket or behind an item. -/
def passItems (fuel : Nat) (first : Bool) (c : Cursor) : Except Misreading Cursor :=
  match fuel with
  | 0 => .error ⟨.endInList, c.mark⟩
  | fuel + 1 =>
    let c := c.skip
    let item (c : Cursor) : Except Misreading Cursor :=
      match passValue fuel c with
      | .error e => .error e
      | .ok after => passItems fuel false after
    match c.rest with
    | [] => .error ⟨.endInList, c.mark⟩
    | x :: rest =>
      if x = ']' then .ok ⟨rest, c.mark.along 1⟩
      else if first then item c
      else if x = ',' then item (skipSpace (c.mark.along 1) rest)
      else .error ⟨.expectedCommaOrBracket, c.mark.pastByte x⟩

/-- Passes over the members of an object behind its opening brace or behind a member. -/
def passMembers (fuel : Nat) (first : Bool) (c : Cursor) : Except Misreading Cursor :=
  match fuel with
  | 0 => .error ⟨.endInObject, c.mark⟩
  | fuel + 1 =>
    let c := c.skip
    let member (m : Mark) (cs : List Char) : Except Misreading Cursor :=
      match passString (m.along 1) cs with
      | .error e => .error e
      | .ok c =>
        let c := c.skip
        match c.rest with
        | [] => .error ⟨.endInObject, c.mark⟩
        | x :: rest =>
          if x = ':' then
            match passValue fuel ⟨rest, c.mark.along 1⟩ with
            | .error e => .error e
            | .ok after => passMembers fuel false after
          else .error ⟨.expectedColon, c.mark.pastByte x⟩
    match c.rest with
    | [] => .error ⟨.endInObject, c.mark⟩
    | x :: rest =>
      if x = '\x7d' then .ok ⟨rest, c.mark.along 1⟩
      else if first then
        if x = '"' then member c.mark rest
        else .error ⟨.keyMustBeString, c.mark.pastByte x⟩
      else if x = ',' then
        let c := skipSpace (c.mark.along 1) rest
        match c.rest with
        | [] => .error ⟨.endInObject, c.mark⟩
        | y :: rest =>
          if y = '"' then member c.mark rest
          else .error ⟨.keyMustBeString, c.mark.pastByte y⟩
      else .error ⟨.expectedCommaOrBrace, c.mark.pastByte x⟩

end

/-! ### Values -/

/-- A scalar that starts at a place and has been read with success, or the fault. -/
def scalarOf {α : Type} (start : Mark) (f : α → Scalar) :
    Except Misreading (α × Cursor) → Document × Except Misreading Cursor
  | .ok (v, c) => (.scalar (f v) (some ⟨start, c.mark⟩), .ok c)
  | .error e => (.broken e, .error e)

/-- A word that starts at a place and has been read with success, or the fault. -/
def wordOf (start : Mark) (v : Scalar) :
    Except Misreading Cursor → Document × Except Misreading Cursor
  | .ok c => (.scalar v (some ⟨start, c.mark⟩), .ok c)
  | .error e => (.broken e, .error e)

/-- The place reached when a list or an object is left at the cursor: behind the closing bracket if
that is next. -/
def Cursor.settle (c : Cursor) (closing : Char) : Option Mark :=
  let c := c.skip
  match c.rest with
  | x :: _ => some (if x = closing then c.mark.along 1 else c.mark)
  | [] => some c.mark

mutual

/-- Reads a value; `depth` more brackets may be opened, less one. -/
def readValue (fuel depth : Nat) (c : Cursor) : Document × Except Misreading Cursor :=
  match fuel with
  | 0 => (.broken ⟨.endInValue, c.mark⟩, .error ⟨.endInValue, c.mark⟩)
  | fuel + 1 =>
    let c := c.skip
    let stop (f : Fault) (m : Mark) : Document × Except Misreading Cursor :=
      (.broken ⟨f, m⟩, .error ⟨f, m⟩)
    match c.rest with
    | [] => stop .endInValue c.mark
    | x :: rest =>
      if x = 'n' then wordOf c.mark .null (readIdent (c.mark.along 1) ['u', 'l', 'l'] rest)
      else if x = 't' then
        wordOf c.mark (.bool true) (readIdent (c.mark.along 1) ['r', 'u', 'e'] rest)
      else if x = 'f' then
        wordOf c.mark (.bool false) (readIdent (c.mark.along 1) ['a', 'l', 's', 'e'] rest)
      else if x = '-' then scalarOf c.mark .number (readNumber true (c.mark.along 1) rest)
      else if isDigit x then scalarOf c.mark .number (readNumber false c.mark c.rest)
      else if x = '"' then scalarOf c.mark .string (readStringChars (c.mark.along 1) [] rest)
      else if x = '[' then
        if depth ≤ 1 then stop .tooDeep (c.mark.along 1)
        else
          let (items, after) := readItems fuel (depth - 1) true ⟨rest, c.mark.along 1⟩
          (.list (some c.mark) items, after)
      else if x = '\x7b' then
        if depth ≤ 1 then stop .tooDeep (c.mark.along 1)
        else
          let (members, after) := readMembers fuel (depth - 1) true ⟨rest, c.mark.along 1⟩
          (.object (some c.mark) members, after)
      else stop .expectedValue (c.mark.pastByte x)

/-- Reads the items of a list behind its opening bracket or behind an item. -/
def readItems (fuel depth : Nat) (first : Bool) (c : Cursor) : Items × Except Misreading Cursor :=
  match fuel with
  | 0 => (.cut ⟨.endInList, c.mark⟩, .error ⟨.endInList, c.mark⟩)
  | fuel + 1 =>
    let c := c.skip
    let stop (f : Fault) (m : Mark) : Items × Except Misreading Cursor :=
      (.cut ⟨f, m⟩, .error ⟨f, m⟩)
    let item (c : Cursor) : Items × Except Misreading Cursor :=
      match readValue fuel depth c with
      | (d, .error e) => (.cons d none (.cut e), .error e)
      | (d, .ok after) =>
        let (rest, last) := readItems fuel depth false after
        (.cons d (after.settle ']') rest, last)
    match c.rest with
    | [] => stop .endInList c.mark
    | x :: rest =>
      if x = ']' then (.close (some (c.mark.along 1)), .ok ⟨rest, c.mark.along 1⟩)
      else if first then item c
      else if x = ',' then
        let c := skipSpace (c.mark.along 1) rest
        match c.rest with
        | [] => stop .endInValue c.mark
        | y :: _ => if y = ']' then stop .trailingComma (c.mark.along 1) else item c
      else stop .expectedCommaOrBracket (c.mark.pastByte x)

/-- Reads the members of an object behind its opening brace or behind a member. -/
def readMembers (fuel depth : Nat) (first : Bool) (c : Cursor) :
    Members × Except Misreading Cursor :=
  match fuel with
  | 0 => (.cut ⟨.endInObject, c.mark⟩, .error ⟨.endInObject, c.mark⟩)
  | fuel + 1 =>
    let c := c.skip
    let stop (f : Fault) (m : Mark) : Members × Except Misreading Cursor :=
      (.cut ⟨f, m⟩, .error ⟨f, m⟩)
    let member (m : Mark) (cs : List Char) : Members × Except Misreading Cursor :=
      match readStringChars (m.along 1) [] cs with
      | .error e => (.cut e, .error e)
      | .ok (key, c) =>
        let c := c.skip
        let broken (f : Fault) (m : Mark) : Members × Except Misreading Cursor :=
          (.cons key (some c.mark) (.broken ⟨f, m⟩) none (.cut ⟨f, m⟩), .error ⟨f, m⟩)
        match c.rest with
        | [] => broken .endInObject c.mark
        | x :: rest =>
          if x = ':' then
            let (d, reached) := readValue fuel depth ⟨rest, c.mark.along 1⟩
            -- who does not look at a value with a fault goes on behind it, if there is a way
            let behind : Except Misreading Cursor := match reached with
              | .ok after => .ok after
              | .error _ => passValue fuel ⟨rest, c.mark.along 1⟩
            match behind with
            | .error e => (.cons key (some c.mark) d none (.cut e), .error e)
            | .ok after =>
              let (others, last) := readMembers fuel depth false after
              (.cons key (some c.mark) d (after.settle '\x7d') others, last)
          else broken .expectedColon (c.mark.pastByte x)
    match c.rest with
    | [] => stop .endInObject c.mark
    | x :: rest =>
      if x = '\x7d' then (.close (some (c.mark.along 1)), .ok ⟨rest, c.mark.along 1⟩)
      else if first then
        if x = '"' then member c.mark rest else stop .keyMustBeString (c.mark.pastByte x)
      else if x = ',' then
        let c := skipSpace (c.mark.along 1) rest
        match c.rest with
        | [] => stop .endInValue c.mark
        | y :: rest =>
          if y = '"' then member c.mark rest
          else if y = '\x7d' then stop .trailingComma (c.mark.along 1)
          else stop .keyMustBeString (c.mark.pastByte y)
      else stop .expectedCommaOrBrace (c.mark.pastByte x)

end

/-! ### Texts -/

/-- How many brackets may be open at once, and one more. -/
def depthLimit : Nat := 128

/-- The document of a text, and the fault of what stands behind it. -/
def Document.read (s : String) : Document × Option Misreading :=
  let (d, after) := readValue (2 * s.toList.length + 2) depthLimit (.start s)
  match after with
  | .error _ => (d, none)
  | .ok c =>
    let c := c.skip
    match c.rest with
    | [] => (d, none)
    | x :: _ => (d, some ⟨.trailingCharacters, c.mark.pastByte x⟩)

/-- The value of a text. -/
def parse (s : String) : Except Misreading Json :=
  match Document.read s with
  | (d, none) => d.value
  | (d, some e) => do
    let _ ← d.value
    throw e

end Json

end Conductor

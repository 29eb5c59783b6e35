import Conductor.Json.Reader

/-!
# Formats

A `Format` describes the JSON of one type: its fields, which of them may be missing and what then
stands for them, the words of a choice, the variants of a tagged value. `readAs` checks a
document against a format and gives the value in normal form: every field of a record is there, in
the order of the format, and nothing else.

Data are checked in the order of the text, so of two faults the first one is reported; a missing
field is reported only when all fields that are there are good.

* `Refusal` : why a document does not have a format, and where;
* `readAs` : the normal form of a document;
* `Codec` : a format with the two directions between normal forms and a type.
-/

namespace Conductor

namespace Json

/-! ### Refusals -/

/-- Why a document does not have a format. -/
inductive Cause where
  | fault (f : Fault)
  | invalidType (found expected : String)
  | invalidValue (found expected : String)
  | unknownVariant (found : String) (expected : List String)
  | unknownField (found : String) (expected : List String)
  | missingField (name : String)
  | duplicateField (name : String)
  | invalidLength (length : Nat) (expected : String)
  | custom (message : String)
  deriving DecidableEq, Repr, Inhabited

/-- A name between backticks. -/
def ticked (s : String) : String := "`" ++ s ++ "`"

/-- The names of which one was expected. -/
def oneOf : List String → String
  | [] => "there are no variants"
  | [a] => "expected " ++ ticked a
  | [a, b] => "expected " ++ ticked a ++ " or " ++ ticked b
  | names => "expected one of " ++ ", ".intercalate (names.map ticked)

/-- The wording of a cause. -/
def Cause.message : Cause → String
  | .fault f => f.message
  | .invalidType found expected => "invalid type: " ++ found ++ ", expected " ++ expected
  | .invalidValue found expected => "invalid value: " ++ found ++ ", expected " ++ expected
  | .unknownVariant found expected => "unknown variant " ++ ticked found ++ ", " ++ oneOf expected
  | .unknownField found expected => "unknown field " ++ ticked found ++ ", " ++ oneOf expected
  | .missingField name => "missing field " ++ ticked name
  | .duplicateField name => "duplicate field " ++ ticked name
  | .invalidLength n expected =>
    "invalid length " ++ toString n ++ ", expected " ++ expected
  | .custom message => message

/-- A cause and, for a text, the place where it shows. -/
structure Refusal where
  cause : Cause
  mark : Option Mark
  deriving DecidableEq, Repr, Inhabited

/-- The message of a refusal. -/
def Refusal.message (r : Refusal) : String :=
  r.cause.message ++ (r.mark.map Mark.render).getD ""

/-- The refusal of a text that cannot be read. -/
def Misreading.refusal (e : Misreading) : Refusal := ⟨.fault e.fault, some e.mark⟩

/-- A refusal without a place gets one. -/
def anchor {α : Type} (m : Option Mark) : Except Refusal α → Except Refusal α
  | .ok a => .ok a
  | .error ⟨cause, none⟩ => .error ⟨cause, m⟩
  | .error r => .error r

/-! ### What was found -/

/-- A character of a string as it is shown between quotation marks in a message. -/
def shownChar (c : Char) : List Char :=
  if c = '"' then ['\\', '"']
  else if c = '\\' then ['\\', '\\']
  else if c = '\n' then ['\\', 'n']
  else if c = '\r' then ['\\', 'r']
  else if c = '\t' then ['\\', 't']
  else if c.toNat = 0 then ['\\', '0']
  else if c.toNat < 0x20 ∨ (0x7F ≤ c.toNat ∧ c.toNat < 0xA0) then
    ['\\', 'u', '\x7b'] ++ Nat.toDigits 16 c.toNat ++ ['\x7d']
  else [c]

/-- A text between quotation marks, as it is shown in a message. -/
def shown (s : String) : String := String.ofList ('"' :: s.toList.flatMap shownChar ++ ['"'])

/-- How a message names a scalar. -/
def Scalar.found : Scalar → String
  | .null => "null"
  | .bool b => "boolean " ++ ticked (if b then "true" else "false")
  | .number (.int n) => "integer " ++ ticked (toString n)
  | .number (.float x) => "floating point " ++ ticked (Binary.double.render x)
  | .string s => "string " ++ shown s

/-- How a message names what a document holds. -/
def Document.found : Document → String
  | .scalar v _ => v.found
  | .list _ _ => "sequence"
  | .object _ _ => "map"
  | .broken e => e.fault.message

/-- The place of a value of the wrong type: behind a scalar, before a bracket. -/
def Document.typeMark : Document → Option Mark
  | .scalar _ place => place.map Span.after
  | .list m _ => m
  | .object m _ => m
  | .broken e => some e.mark

/-! ### Formats -/

/-- What stands for a field that is missing. -/
inductive Presence where
  /-- Nothing: the field must be there. -/
  | required
  /-- `null`, which may also be written. -/
  | nullable
  /-- A value of its own; `null` may not be written unless the format says so. -/
  | default (v : Json)

/-- The JSON of one type. -/
inductive Format where
  /-- Any value. -/
  | any
  /-- A string that passes a check. -/
  | text (expected : String) (check : String → Except String Unit)
  /-- A boolean. -/
  | bool
  /-- An integer from zero up to a bound. -/
  | unsigned (name : String) (bound : Nat)
  /-- A number. -/
  | float (name : String)
  /-- An array. -/
  | list (item : Format)
  /-- An object with any keys. -/
  | table (value : Format)
  /-- An object with named fields, or the array of its fields; other fields are refused when
  `closed`. -/
  | record (name : String) (closed : Bool) (fields : List (String × Presence × Format))
      (finish : Json → Except String Json)
  /-- One of some words. -/
  | choice (variants : List String)
  /-- An object whose tag says which other fields it has. -/
  | tagged (name tag : String)
      (variants : List (String × String × List (String × Presence × Format)))

instance : Inhabited Format := ⟨.any⟩

/-- Any string. -/
def Format.string : Format := .text "a string" fun _ => .ok ()

/-- An unsigned integer of 32 bits. -/
def Format.u32 : Format := .unsigned "u32" (Nat.pow 2 32 - 1)

/-- An unsigned integer of 64 bits. -/
def Format.u64 : Format := .unsigned "u64" (Nat.pow 2 64 - 1)

/-- A count. -/
def Format.count : Format := .unsigned "usize" (Nat.pow 2 64 - 1)

/-- A record that may have other fields. -/
def Format.open_ (name : String) (fields : List (String × Presence × Format)) : Format :=
  .record name false fields .ok

/-- Where the document comes from: a text, a value, or a tagged object that has been read whole
before its variant was known. -/
inductive Source where
  | text
  | value
  | buffered
  deriving DecidableEq, Repr, Inhabited

/-- The message about an array with too many items. -/
def Source.excess (src : Source) (length wanted : Nat) : Cause :=
  match src with
  | .text => .fault .trailingCharacters
  | .value => .invalidLength length "fewer elements in array"
  | .buffered =>
    .invalidLength length
      (toString wanted ++ (if wanted = 1 then " element" else " elements") ++ " in sequence")

/-- The place, unless the document has been read whole before. -/
def Source.place (src : Source) (m : Option Mark) : Option Mark :=
  match src with
  | .buffered => none
  | _ => m

/-- The refusal of a document of the wrong type. -/
def wrongType {α : Type} (src : Source) (d : Document) (expected : String) : Except Refusal α :=
  match d with
  | .broken e => .error e.refusal
  | d => .error ⟨.invalidType d.found expected, src.place d.typeMark⟩

/-- The name of a record with the number of its fields. -/
def sized (name : String) (closed : Bool) (n : Nat) : String :=
  if closed then name
  else name ++ " with " ++ toString n ++ (if n = 1 then " element" else " elements")

/-- The fields in the order of the format; a missing one is filled in. -/
def complete (found : List (String × Json)) :
    List (String × Presence × Format) → Except Cause (List (String × Json))
  | [] => .ok []
  | (name, presence, _) :: rest => do
    let value ← match found.lookup name with
      | some v => pure v
      | none => match presence with
        | .required => throw (.missingField name)
        | .nullable => pure .null
        | .default v => pure v
    return (name, value) :: (← complete found rest)

/-- A scalar in a format. -/
def readScalar (src : Source) (v : Scalar) (place : Option Span) (f : Format) :
    Except Refusal Json :=
  let wrong (expected : String) : Except Refusal Json :=
    wrongType src (.scalar v place) expected
  let bad (c : Cause) : Except Refusal Json := .error ⟨c, src.place (place.map Span.after)⟩
  match f, v with
  | .any, v => .ok v.toJson
  | .text _ check, .string s =>
    match check s with
    | .ok () => .ok (.string s)
    | .error message => bad (.custom message)
  | .text expected _, _ => wrong expected
  | .bool, .bool b => .ok (.bool b)
  | .bool, _ => wrong "a boolean"
  | .unsigned name bound, .number (.int n) =>
    if 0 ≤ n ∧ n ≤ bound then .ok (.number (.int n))
    else bad (.invalidValue v.found name)
  | .unsigned name _, _ => wrong name
  | .float _, .number n => .ok (.number n)
  | .float name, _ => wrong name
  | .list _, _ => wrong "a sequence"
  | .table _, _ => wrong "a map"
  | .record name _ _ _, _ => wrong ("struct " ++ name)
  | .choice variants, .string s =>
    if variants.contains s then .ok (.string s) else bad (.unknownVariant s variants)
  | .choice _, _ =>
    if src = .text then .error ⟨.fault .expectedValue, place.map fun s => s.before.along 1⟩
    else wrong "string or map"
  | .tagged name _ _, _ => wrong ("internally tagged enum " ++ name)

/-- The variant that a tag names. -/
def readTag (src : Source) (variants : List String) (d : Document) : Except Refusal String :=
  match d with
  | .scalar (.string s) place =>
    if variants.contains s then .ok s
    else .error ⟨.unknownVariant s variants, src.place (place.map Span.after)⟩
  | d => wrongType src d "variant identifier"

/-- Looks for the tag of an object and makes sure that the other members can be read. -/
def findTag (src : Source) (tag : String) (variants : List String) (found : Option String) :
    Members → Except Refusal String
  | .cut e => .error e.refusal
  | .close after =>
    match found with
    | some v => .ok v
    | none => .error ⟨.missingField tag, src.place after⟩
  | .cons key afterKey value _ rest =>
    if key = tag then
      if found.isSome then .error ⟨.duplicateField tag, src.place afterKey⟩
      else do findTag src tag variants (some (← readTag src variants value)) rest
    else do
      let _ ← value.value.mapError Misreading.refusal
      findTag src tag variants found rest

/-- The single word that an object stands for when a choice was expected. -/
def readChoiceObject (src : Source) (variants : List String) (members : Members) :
    Except Refusal Json := do
  let ms ← members.values.mapError Misreading.refusal
  match ms with
  | [(k, v)] =>
    if !variants.contains k then throw ⟨.unknownVariant k variants, none⟩
    else match v with
      | .null => pure (.string k)
      | v => throw ⟨.invalidType (Document.ofJson v).found "unit", none⟩
  | _ =>
    if src = .text then throw ⟨.fault .expectedValue, none⟩
    else throw ⟨.invalidValue "map" "map with a single key", none⟩

mutual

/-- The normal form of a document in a format. -/
def readAs (src : Source) (f : Format) : Document → Except Refusal Json
  | .broken e => .error e.refusal
  | .scalar v place => readScalar src v place f
  | .list before items =>
    let wrong (expected : String) : Except Refusal Json :=
      .error ⟨.invalidType "sequence" expected, src.place before⟩
    match f with
    | .any => do return .array (← items.values.mapError Misreading.refusal)
    | .text expected _ => wrong expected
    | .bool => wrong "a boolean"
    | .unsigned name _ => wrong name
    | .float name => wrong name
    | .list item => do return .array (← readEach src item items)
    | .table _ => wrong "a map"
    | .record name closed fields finish => do
      let (found, after) ←
        readTuple src ("struct " ++ name) closed fields.length 0 fields items
      match finish (.object found) with
      | .ok v => return v
      | .error message => throw ⟨.custom message, src.place after⟩
    | .choice _ =>
      if src = .text then .error ⟨.fault .expectedValue, before.map (·.along 1)⟩
      else wrong "string or map"
    | .tagged _ tag variants =>
      match items with
      | .close after => .error ⟨.missingField tag, src.place after⟩
      | .cut e => .error e.refusal
      | .cons item _ rest => do
        let v ← readTag src (variants.map (·.1)) item
        let _ ← rest.values.mapError Misreading.refusal
        let (expected, fields) := (variants.lookup v).getD ("", [])
        let (found, _) ← readTuple .buffered expected false fields.length 0 fields rest
        return .object ((tag, .string v) :: found)
  | .object before members =>
    let wrong (expected : String) : Except Refusal Json :=
      .error ⟨.invalidType "map" expected, src.place before⟩
    match f with
    | .any => do return .ofMembers (← members.values.mapError Misreading.refusal)
    | .text expected _ => wrong expected
    | .bool => wrong "a boolean"
    | .unsigned name _ => wrong name
    | .float name => wrong name
    | .list _ => wrong "a sequence"
    | .table value => do return .ofMembers (← readTable src value members)
    | .record _ closed fields finish => do
      let (found, after) ← readFields src none closed fields [] members
      match complete found fields with
      | .error cause => throw ⟨cause, src.place after⟩
      | .ok all => match finish (.object all) with
        | .ok v => return v
        | .error message => throw ⟨.custom message, src.place after⟩
    | .choice variants => readChoiceObject src variants members
    | .tagged _ tag variants => do
      let v ← findTag src tag (variants.map (·.1)) none members
      let (_, fields) := (variants.lookup v).getD ("", [])
      let (found, _) ← readFields .buffered (some tag) false fields [] members
      match complete found fields with
      | .error cause => throw ⟨cause, none⟩
      | .ok all => return .object ((tag, .string v) :: all)

/-- The normal forms of all items. -/
def readEach (src : Source) (f : Format) : Items → Except Refusal (List Json)
  | .close _ => .ok []
  | .cut e => .error e.refusal
  | .cons item settled rest => do
    let v ← anchor (src.place settled) (readAs src f item)
    return v :: (← readEach src f rest)

/-- The fields of a record that is written as an array, from the field of number `index` on. The
array may end before the fields that may be missing. -/
def readTuple (src : Source) (expected : String) (closed : Bool) (total index : Nat)
    (fields : List (String × Presence × Format)) :
    Items → Except Refusal (List (String × Json) × Option Mark)
  | .cut e => .error e.refusal
  | .close after =>
    match complete [] fields with
    | .ok all => .ok (all, after)
    | .error _ => .error ⟨.invalidLength index (sized expected closed total), src.place after⟩
  | .cons item settled rest =>
    match fields with
    | [] => .error ⟨src.excess (index + 1 + rest.length) total, src.place (settled.map (·.along 2))⟩
    | (name, presence, f) :: fields => do
      let v ← match presence, item with
        | .nullable, .scalar .null _ => pure .null
        | _, _ => anchor (src.place settled) (readAs src f item)
      let (others, after) ← readTuple src expected closed total (index + 1) fields rest
      return ((name, v) :: others, after)

/-- The normal forms of the values of a table. -/
def readTable (src : Source) (f : Format) : Members → Except Refusal (List (String × Json))
  | .close _ => .ok []
  | .cut e => .error e.refusal
  | .cons key _ value settled rest => do
    let v ← anchor (src.place settled) (readAs src f value)
    return (key, v) :: (← readTable src f rest)

/-- The fields of a record that are there, in the order of the text; the member `passed` is the tag
of the record and no field. The value of a member that is no field is not looked at, so that it may
have a fault; what has been read whole before has none. -/
def readFields (src : Source) (passed : Option String) (closed : Bool)
    (fields : List (String × Presence × Format)) (found : List (String × Json)) :
    Members → Except Refusal (List (String × Json) × Option Mark)
  | .close after => .ok (found, after)
  | .cut e => .error e.refusal
  | .cons key afterKey value settled rest =>
    if passed = some key then readFields src passed closed fields found rest
    else match fields.lookup key with
      | none =>
        if closed then
          .error ⟨.unknownField key (fields.map (·.1)), src.place afterKey⟩
        else readFields src passed closed fields found rest
      | some (presence, f) =>
        if (found.lookup key).isSome then .error ⟨.duplicateField key, src.place afterKey⟩
        else do
          let v ← match presence, value with
            | .nullable, .scalar .null _ => pure .null
            | _, _ => anchor (src.place settled) (readAs src f value)
          readFields src passed closed fields ((key, v) :: found) rest

end

/-- A document of any kind is read as its value. -/
theorem readAs_any {src : Source} {d : Document} :
    readAs src .any d = d.value.mapError Misreading.refusal := by
  cases d with
  | scalar v place => rfl
  | list before items =>
    rw [readAs, Document.value]
    cases items.values <;> rfl
  | object before members =>
    rw [readAs, Document.value]
    cases members.values <;> rfl
  | broken e => rfl

/-- The normal form of a value. -/
def Format.ofValue (f : Format) (j : Json) : Except Refusal Json := readAs .value f (.ofJson j)

/-- The normal form of a text. -/
def Format.ofText (f : Format) (s : String) : Except Refusal Json :=
  match Document.read s with
  | (d, none) => readAs .text f d
  | (d, some e) => do
    let _ ← readAs .text f d
    throw e.refusal

/-! ### Codecs -/

/-- A format and the two directions between its normal forms and a type. -/
structure Codec (α : Type) where
  format : Format
  encode : α → Json
  decode? : Json → Option α

namespace Codec

variable {α : Type} (c : Codec α)

/-- A normal form as a value of the type. -/
def finish (j : Json) : Except Refusal α :=
  match c.decode? j with
  | some a => .ok a
  | none => .error ⟨.custom "value out of range", none⟩

/-- The value of the type that a JSON value stands for. -/
def ofValue (j : Json) : Except Refusal α := do c.finish (← c.format.ofValue j)

/-- The value of the type that a text stands for. -/
def ofText (s : String) : Except Refusal α := do c.finish (← c.format.ofText s)

/-- The arrays of values of the type. -/
def list : Codec (List α) where
  format := .list c.format
  encode xs := .array (xs.map c.encode)
  decode? j := do (← j.items?).mapM c.decode?

end Codec

end Json

end Conductor

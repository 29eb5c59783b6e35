import Conductor.Json.Format
import Conductor.Text.Excerpt

/-!
# The digest

The working memory of a run: a table of facts of bounded size and a log of bounded length. When the
table is too large, its lowest entries, by turn, number of updates and key, give way to one line in
the log; log lines that are dropped are counted.

* `Digest.log` : one more line;
* `Digest.fold` : facts put into the table, which is then compressed;
* `Digest.ranked` : the entries from the lowest to the highest;
* `Digest.promptSection` : the digest as it stands in a prompt.
-/

namespace Conductor

/-- The size of a digest. -/
structure DigestLimits where
  maxEntries : Nat
  maxLog : Nat
  deriving DecidableEq, Repr, Inhabited

/-- The usual size. -/
def DigestLimits.standard : DigestLimits := ⟨32, 16⟩

/-- What is known under a key, since which turn, and how often it was written, both in 32 bits. -/
structure Digest.Entry where
  value : String
  turn : Nat
  updates : Nat
  deriving DecidableEq, Repr, Inhabited

/-- The working memory of a run. -/
structure Digest where
  entries : Keyed Digest.Entry
  decisionLog : List String
  /-- How many lines the log has lost. The counter has 64 bits, which a log that is kept in memory
  does not exhaust; only a stored counter may stand so high that it would have to start again. -/
  elided : Nat
  deriving DecidableEq, Inhabited

namespace Digest

/-- Nothing known yet. -/
def empty : Digest := ⟨.empty, [], 0⟩

/-- The digest holds neither facts nor lines. -/
def isEmpty (d : Digest) : Bool := d.entries.entries.isEmpty && d.decisionLog.isEmpty

/-- The value under a key. -/
def get? (d : Digest) (key : String) : Option String := (d.entries.get? key).map (·.value)

/-! ### Writing -/

/-- One more line in the log, which keeps its newest lines. -/
def log (limits : DigestLimits) (line : String) (d : Digest) : Digest :=
  let all := d.decisionLog ++ [line]
  let overflow := all.length - max limits.maxLog 1
  { d with decisionLog := all.drop overflow, elided := d.elided + overflow }

/-- The entry of a key after a value has been written in a turn. The count of its updates starts
again behind the largest number of 32 bits. -/
def written (before : Option Entry) (turn : Nat) (value : String) : Entry :=
  match before with
  | some e => ⟨value, turn, (e.updates + 1) % Nat.pow 2 32⟩
  | none => ⟨value, turn, 1⟩

/-- A value written under a key. -/
def upsert (turn : Nat) (t : Keyed Entry) (fact : String × String) : Keyed Entry :=
  t.insert fact.1 (written (t.get? fact.1) turn fact.2)

/-- The first entry ranks at most as high as the second: by turn, updates and key. -/
def rankLe (a b : String × Entry) : Bool :=
  a.2.turn < b.2.turn ||
    (a.2.turn == b.2.turn &&
      (a.2.updates < b.2.updates || (a.2.updates == b.2.updates && a.1 ≤ b.1)))

/-- The entries of a table from the lowest to the highest. -/
def ranked (t : Keyed Entry) : List (String × Entry) := t.entries.mergeSort rankLe

/-- How many characters of a value are shown in the log. -/
def shownChars : Nat := 40

/-- How many entries are shown in one line of the log. -/
def shownEntries : Nat := 3

/-- The turns that some entries come from. -/
def turnSpan (victims : List (String × Entry)) : String :=
  let turns := victims.map (·.2.turn)
  let first := turns.min?.getD 0
  let last := turns.max?.getD 0
  if first = last then "turn " ++ toString first
  else "turns " ++ toString first ++ "-" ++ toString last

/-- The line for entries that have given way. -/
def compressionLine (victims : List (String × Entry)) : String :=
  let shown := (victims.take shownEntries).map fun (k, e) =>
    k ++ "=" ++ Text.clip e.value shownChars "..."
  "compressed " ++ toString victims.length ++ " fact(s) from " ++ turnSpan victims ++ ": " ++
    ", ".intercalate shown ++
    (if shownEntries < victims.length then
      " (+" ++ toString (victims.length - shownEntries) ++ " more)" else "")

/-- The lowest entries beyond the limit. -/
def victims (limits : DigestLimits) (t : Keyed Entry) : List (String × Entry) :=
  (ranked t).take (t.size - limits.maxEntries)

/-- The digest with its table within the limit. -/
def compress (limits : DigestLimits) (d : Digest) : Digest :=
  if d.entries.size ≤ limits.maxEntries then d
  else
    let gone := victims limits d.entries
    let kept := d.entries.filter fun k _ => !(gone.map (·.1)).contains k
    { d with entries := kept }.log limits (compressionLine gone)

/-- Facts put into the table in order. -/
def fold (limits : DigestLimits) (turn : Nat) (facts : List (String × String)) (d : Digest) :
    Digest :=
  { d with entries := facts.foldl (upsert turn) d.entries }.compress limits

/-! ### Showing -/

/-- The digest as it stands in a prompt. -/
def promptSection (d : Digest) : String :=
  String.join <|
    (if d.entries.entries.isEmpty then []
      else "## Working memory\n" ::
        (d.entries.entries.map fun (k, e) => "- " ++ k ++ " = " ++ e.value ++ "\n") ++ ["\n"]) ++
    (if d.decisionLog.isEmpty then []
      else "## Decision log\n" ::
        (if 0 < d.elided then
          ["- (" ++ toString d.elided ++ " earlier entries elided)\n"] else []) ++
        (d.decisionLog.map fun l => "- " ++ l ++ "\n") ++ ["\n"])

open Json

/-- The JSON of an entry. -/
def Entry.codec : Codec Entry where
  format := .open_ "DigestEntry"
    [("value", .required, .string), ("turn", .required, .u32), ("updates", .required, .u32)]
  encode e := .object
    [("value", .string e.value), ("turn", .nat e.turn), ("updates", .nat e.updates)]
  decode? j := do
    return ⟨← j.part? "value" text?, ← j.part? "turn" nat?, ← j.part? "updates" nat?⟩

/-- The table of entries that a value holds. -/
def entries? (j : Json) : Option (Keyed Entry) := do
  let ms ← j.members?
  return .ofList (← ms.mapM fun (k, v) => do return (k, ← Entry.codec.decode? v))

/-- The JSON of a digest. -/
def codec : Codec Digest where
  format := .open_ "WorkingMemory"
    [("entries", .required, .table Entry.codec.format),
      ("decision_log", .required, .list .string),
      ("elided_log_entries", .required, .count)]
  encode d := .object
    [("entries", .object (d.entries.entries.map fun (k, e) => (k, Entry.codec.encode e))),
      ("decision_log", .strings d.decisionLog), ("elided_log_entries", .nat d.elided)]
  decode? j := do
    return ⟨← j.part? "entries" entries?, ← j.part? "decision_log" texts?,
      ← j.part? "elided_log_entries" nat?⟩

end Digest

end Conductor

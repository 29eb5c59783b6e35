import Conductor.Settings.Basic
import Conductor.Settings.Layer

/-!
# Reading settings from a layer

A layer says each setting in the words of its source; a setting takes a value of another kind if
that has an obvious meaning, such as the text `on` for a truth value.

* `Settings.ofLayer` : the settings that a layer says, the usual ones where it says nothing;
* `Settings.Fault.message` : why a layer cannot be understood.
-/

namespace Conductor

/-! ### Faults -/

/-- Why settings cannot be understood. -/
inductive Settings.Fault where
  /-- The text of a source cannot be read. -/
  | unreadable (source : String)
  /-- A setting has a value that does not fit. -/
  | misfit (found expected : String) (path : Path) (source : Option String)
  /-- A value stands where one with parts is needed. -/
  | shape (found expected : String)
  /-- A word is none of those of a choice. -/
  | unknownWord (choice word : String)
  /-- What stands for a choice names no word. -/
  | noWord (choice : String)
  deriving DecidableEq, Repr, Inhabited

namespace Settings.Fault

/-- The wording of a fault. -/
def message : Settings.Fault → String
  | .unreadable source => "invalid text in " ++ source
  | .misfit found expected path source =>
    "invalid type: " ++ found ++ ", expected " ++ expected ++ " for key "
      ++ Json.ticked (path.dotted) ++ ((source.map (" in " ++ ·)).getD "")
  | .shape found expected => "invalid type: " ++ found ++ ", expected " ++ expected
  | .unknownWord choice word =>
    "enum " ++ choice ++ " does not have variant constructor " ++ word
  | .noWord choice =>
    "value of enum " ++ choice ++
      " should be represented by either string or table with exactly one key"

/-- The fault as the reason why a goal is not run. -/
def report (f : Settings.Fault) : String := "Config error: " ++ f.message

/-- The fault as seen from one step further out. -/
def below (step : Step) : Settings.Fault → Settings.Fault
  | .misfit found expected path source => .misfit found expected (step :: path) source
  | f => f

end Settings.Fault

/-! ### What was found -/

/-- The text of a binary number with at least one fraction digit. -/
def withPoint (x : Binary.Extended) : String :=
  let s := Binary.double.renderPlain x
  match x with
  | .finite y => if y.isIntegral then s ++ ".0" else s
  | _ => s

/-- How a message names a value that has no parts. -/
def Atom.found : Atom → String
  | .nothing => "unit value"
  | .bool b => "boolean " ++ Json.ticked (if b then "true" else "false")
  | .int n => "integer " ++ Json.ticked (toString n)
  | .float x => "floating point " ++ Json.ticked (withPoint x)
  | .text s => "string " ++ Json.shown s

namespace Layer

open Settings (Fault)

/-- How a message names what a layer says. -/
def found : Layer → String
  | .atom v _ => v.found
  | .list _ _ => "sequence"
  | .table _ _ => "map"

/-- The fault of a setting that does not fit. -/
def misfit {α : Type} (l : Layer) (expected : String) : Except Fault α :=
  .error (.misfit l.found expected [] l.origin)

/-! ### Single settings -/

/-- The truth value that a word stands for. -/
def truthOf? (word : String) : Option Bool :=
  if ["true", "on", "yes"].contains word then some true
  else if ["false", "off", "no"].contains word then some false
  else none

/-- A truth value; a number other than zero counts as true. -/
def truth (l : Layer) : Except Fault Bool :=
  match l with
  | .atom (.bool b) _ => .ok b
  | .atom (.int n) _ => .ok (n != 0)
  | .atom (.float (.finite x)) _ => .ok (x.significand != 0)
  | .atom (.float _) _ => .ok true
  | .atom (.text s) o =>
    let word := Text.lower s
    if word = "1" then .ok true
    else if word = "0" then .ok false
    else match truthOf? word with
      | some b => .ok b
      | none => misfit (.atom (.text word) o) "a boolean"
  | l => l.misfit "a boolean"

/-- The greatest number of 64 bits. -/
def greatestWord : Nat := Nat.pow 2 64 - 1

/-- The natural number of at most 64 bits nearest to a binary number; a half goes up, and no number
counts as zero. -/
def nearestNat : Binary.Extended → Nat
  | .nan => 0
  | .infinity negative => if negative then 0 else greatestWord
  | .finite x =>
    let (num, den) := x.ratio
    if x.negative then 0 else min ((2 * num + den) / (2 * den)) greatestWord

/-- A natural number of at most 64 bits. -/
def natural (l : Layer) : Except Fault Nat :=
  match l with
  | .atom (.bool b) _ => .ok b.toNat
  | .atom (.int n) o =>
    if 0 ≤ n then .ok n.toNat
    else .error (.misfit ("64-bit integer " ++ Json.ticked (toString n))
      "an unsigned 64 bit or less integer" [] o)
  | .atom (.float x) _ => .ok (nearestNat x)
  | .atom (.text s) _ =>
    match truthOf? (Text.lower s), (Decimal.natural? s.toList).filter (· ≤ greatestWord) with
    | some b, _ => .ok b.toNat
    | none, some n => .ok n
    | none, none => l.misfit "an integer"
  | l => l.misfit "an integer"

/-- A natural number of at most 32 bits. -/
def smallNatural (l : Layer) : Except Fault Nat := do
  let n ← l.natural
  if n < Nat.pow 2 32 then return n
  else throw (.misfit ("64-bit unsigned integer " ++ Json.ticked (toString n))
    "an unsigned 32 bit integer" [] none)

/-- A binary number of 64 bits. -/
def double (l : Layer) : Except Fault Binary.Extended :=
  let ofTruth (b : Bool) : Binary.Extended := Binary.double.ofInt (if b then 1 else 0)
  match l with
  | .atom (.bool b) _ => .ok (ofTruth b)
  | .atom (.int n) _ => .ok (Binary.double.ofInt n)
  | .atom (.float x) _ => .ok x
  | .atom (.text s) _ =>
    match truthOf? (Text.lower s), Decimal.double? s.toList with
    | some b, _ => .ok (ofTruth b)
    | none, some x => .ok x
    | none, none => l.misfit "a floating point"
  | l => l.misfit "a floating point"

/-- A binary number of 32 bits. -/
def single (l : Layer) : Except Fault Binary.Extended := do
  return Binary.single.ofExtended (← l.double)

/-- A text; truth values and numbers are written out. -/
def string (l : Layer) : Except Fault String :=
  match l with
  | .atom (.bool b) _ => .ok (if b then "true" else "false")
  | .atom (.int n) _ => .ok (toString n)
  | .atom (.float x) _ => .ok (Binary.double.renderPlain x)
  | .atom (.text s) _ => .ok s
  | l => l.misfit "a string"

/-- A text, or none where nothing is said. -/
def string? (l : Layer) : Except Fault (Option String) :=
  match l with
  | .atom .nothing _ => .ok none
  | l => l.string.map some

/-- The texts of a list. -/
def strings (l : Layer) : Except Fault (List String) :=
  match l with
  | .list items _ =>
    items.zipIdx.mapM fun (item, i) => item.string.mapError (·.below (.item i))
  | l => .error (.shape l.found "a sequence")

/-- The name of the choice of a store in messages. -/
def storeChoice : String := "StoreKind"

/-- The kind of store that a word stands for, without regard to capital letters. -/
def storeKindOf (word : String) : Except Fault StoreKind :=
  match StoreKind.ofName? (Text.lower word) with
  | some k => .ok k
  | none => .error (.unknownWord storeChoice word)

/-- A kind of store: a word, or a table with the word as its only key. -/
def storeKind : Layer → Except Fault StoreKind
  | .atom (.text s) _ => storeKindOf s
  | .table [(key, _)] _ => storeKindOf key
  | _ => .error (.noWord storeChoice)

/-! ### Sections -/

/-- What a layer says about the fields of a section, with the step that leads to each. A list says
the fields in their order. -/
def parts (l : Layer) (s : Section) : Except Fault (List (String × Step × Layer)) :=
  match l with
  | .table entries _ =>
    .ok (s.fields.filterMap fun k => (entries.lookup k).map fun v => (k, .member k, v))
  | .list items _ => .ok ((s.fields.zip items.zipIdx).map fun (k, v, i) => (k, .item i, v))
  | l => .error (.shape l.found ("struct " ++ s.name))

end Layer

/-- The value of a field, or the usual one if nothing is said about it. -/
def fieldOf {α : Type} (ps : List (String × Step × Layer)) (k : String)
    (read : Layer → Except Settings.Fault α) (usual : α) : Except Settings.Fault α :=
  match ps.lookup k with
  | none => .ok usual
  | some (step, v) => (read v).mapError (·.below step)

open Settings (Fault)

/-- The sampling that the fields of a section say. -/
def Sampling.ofParts (ps : List (String × Step × Layer)) (usual : Sampling) :
    Except Fault Sampling := do
  return ⟨← fieldOf ps "max_tokens" Layer.smallNatural usual.maxTokens,
    ← fieldOf ps "temperature" Layer.single usual.temperature⟩

/-- The settings of a run that a layer says. -/
def AgentSettings.ofLayer (l : Layer) : Except Fault AgentSettings := do
  let ps ← l.parts agentSection
  let usual := AgentSettings.standard
  return {
    maxTurns := ← fieldOf ps "max_turns" Layer.smallNatural usual.maxTurns
    maxDurationSecs := ← fieldOf ps "max_duration_secs" Layer.natural usual.maxDurationSecs
    systemPrompt := ← fieldOf ps "system_prompt" Layer.string? usual.systemPrompt }

/-- The settings of the failure policy that a layer says. -/
def PolicySettings.ofLayer (l : Layer) : Except Fault PolicySettings := do
  let ps ← l.parts policySection
  let usual := PolicySettings.standard
  return {
    maxRetries := ← fieldOf ps "max_retries" Layer.smallNatural usual.maxRetries
    baseBackoffMs := ← fieldOf ps "base_backoff_ms" Layer.natural usual.baseBackoffMs
    useFallbacks := ← fieldOf ps "use_fallbacks" Layer.truth usual.useFallbacks
    askUserWhenMissingFields :=
      ← fieldOf ps "ask_user_when_missing_fields" Layer.truth usual.askUserWhenMissingFields }

/-- The settings of tool calls that a layer says. -/
def ToolSettings.ofLayer (l : Layer) : Except Fault ToolSettings := do
  let ps ← l.parts toolsSection
  let usual := ToolSettings.standard
  return {
    defaultTimeoutSecs :=
      ← fieldOf ps "default_timeout_secs" Layer.natural usual.defaultTimeoutSecs
    workingDir := ← fieldOf ps "working_dir" Layer.string? usual.workingDir
    repairOutput := ← fieldOf ps "repair_output" Layer.truth usual.repairOutput }

/-- The settings of the critic that a layer says. -/
def CriticSettings.ofLayer (l : Layer) : Except Fault CriticSettings := do
  let ps ← l.parts criticSection
  let usual := CriticSettings.standard
  return {
    enabled := ← fieldOf ps "enabled" Layer.truth usual.enabled
    evaluateAllTools := ← fieldOf ps "evaluate_all_tools" Layer.truth usual.evaluateAllTools
    evaluateTools := ← fieldOf ps "evaluate_tools" Layer.strings usual.evaluateTools
    promptTemplate := ← fieldOf ps "prompt_template" Layer.string usual.promptTemplate
    sampling := ← Sampling.ofParts ps usual.sampling }

/-- The limits of observations that a layer says. -/
def ObservationLimits.ofLayer (l : Layer) : Except Fault ObservationLimits := do
  let ps ← l.parts observationSection
  let usual := ObservationLimits.standard
  return {
    summaryChars := ← fieldOf ps "summary_max_chars" Layer.natural usual.summaryChars
    maxFacts := ← fieldOf ps "max_facts" Layer.natural usual.maxFacts
    factChars := ← fieldOf ps "fact_max_chars" Layer.natural usual.factChars }

/-- The limits of the digest that a layer says. -/
def DigestLimits.ofLayer (l : Layer) : Except Fault DigestLimits := do
  let ps ← l.parts memorySection
  let usual := DigestLimits.standard
  return {
    maxEntries := ← fieldOf ps "digest_max_entries" Layer.natural usual.maxEntries
    maxLog := ← fieldOf ps "decision_log_max" Layer.natural usual.maxLog }

/-- The settings of the store that a layer says. -/
def StoreSettings.ofLayer (l : Layer) : Except Fault StoreSettings := do
  let ps ← l.parts storeSection
  let usual := StoreSettings.standard
  return {
    kind := ← fieldOf ps "kind" Layer.storeKind usual.kind
    dir := ← fieldOf ps "dir" Layer.string usual.dir }

/-- The settings that a layer says. -/
def Settings.ofLayer (l : Layer) : Except Fault Settings := do
  let ps ← l.parts settingsSection
  let usual := Settings.standard
  return {
    agent := ← fieldOf ps "agent" AgentSettings.ofLayer usual.agent
    policy := ← fieldOf ps "policy" PolicySettings.ofLayer usual.policy
    tools := ← fieldOf ps "tools" ToolSettings.ofLayer usual.tools
    planner := ← fieldOf ps "planner"
      (fun l => do Sampling.ofParts (← l.parts plannerSection) usual.planner) usual.planner
    critic := ← fieldOf ps "critic" CriticSettings.ofLayer usual.critic
    observation := ← fieldOf ps "observation" ObservationLimits.ofLayer usual.observation
    memory := ← fieldOf ps "memory" DigestLimits.ofLayer usual.memory
    store := ← fieldOf ps "store" StoreSettings.ofLayer usual.store }

end Conductor

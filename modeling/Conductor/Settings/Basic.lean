import Conductor.Critique.Critic
import Conductor.Observation.Normalizer
import Conductor.Policy

/-!
# Settings

What can be set about an agent, in sections. Every setting has a usual value.

* `Settings` : all settings;
* `Settings.codec` : their JSON, in which every section and every setting may be left out.
-/

namespace Conductor

/-- Where states are kept. -/
inductive StoreKind where
  | memory
  | file
  deriving DecidableEq, Repr, Inhabited

/-- The word for a kind of store. -/
def StoreKind.name : StoreKind → String
  | .memory => "memory"
  | .file => "file"

/-- The kind of store that a word stands for. -/
def StoreKind.ofName? (s : String) : Option StoreKind :=
  [StoreKind.memory, .file].find? fun k => k.name == s

/-- The settings of a run. -/
structure AgentSettings where
  maxTurns : Nat
  maxDurationSecs : Nat
  systemPrompt : Option String
  deriving DecidableEq, Repr, Inhabited

/-- The settings of the failure policy. -/
structure PolicySettings where
  maxRetries : Nat
  baseBackoffMs : Nat
  useFallbacks : Bool
  askUserWhenMissingFields : Bool
  deriving DecidableEq, Repr, Inhabited

/-- The settings of tool calls. -/
structure ToolSettings where
  defaultTimeoutSecs : Nat
  workingDir : Option String
  repairOutput : Bool
  deriving DecidableEq, Repr, Inhabited

/-- The settings of the critic. -/
structure CriticSettings where
  enabled : Bool
  evaluateAllTools : Bool
  evaluateTools : List String
  promptTemplate : String
  sampling : Sampling
  deriving DecidableEq, Repr, Inhabited

/-- The settings of the store. -/
structure StoreSettings where
  kind : StoreKind
  dir : String
  deriving DecidableEq, Repr, Inhabited

/-- All settings. -/
structure Settings where
  agent : AgentSettings
  policy : PolicySettings
  tools : ToolSettings
  planner : Sampling
  critic : CriticSettings
  observation : ObservationLimits
  memory : DigestLimits
  store : StoreSettings
  deriving DecidableEq, Repr, Inhabited

/-- The usual settings of a run. -/
def AgentSettings.standard : AgentSettings := ⟨20, 300, none⟩

/-- The usual settings of the failure policy. -/
def PolicySettings.standard : PolicySettings := ⟨2, 500, true, true⟩

/-- The usual settings of tool calls. -/
def ToolSettings.standard : ToolSettings := ⟨30, none, true⟩

/-- The usual settings of the critic. -/
def CriticSettings.standard : CriticSettings :=
  ⟨true, true, [], Critic.standardTemplate, .forCritic⟩

/-- The usual settings of the store. -/
def StoreSettings.standard : StoreSettings := ⟨.memory, "./state"⟩

namespace Settings

/-- The usual settings. -/
def standard : Settings where
  agent := .standard
  policy := .standard
  tools := .standard
  planner := .standard
  critic := .standard
  observation := .standard
  memory := .standard
  store := .standard

/-- The budget of a run. -/
def budget (s : Settings) : Budget := ⟨s.agent.maxTurns, .seconds s.agent.maxDurationSecs⟩

/-- The failure policy. -/
def failurePolicy (s : Settings) : FailurePolicy :=
  ⟨s.policy.maxRetries, .millis s.policy.baseBackoffMs, s.policy.useFallbacks,
    s.policy.askUserWhenMissingFields⟩

end Settings

/-- The critic of some settings. -/
def CriticSettings.critic (c : CriticSettings) : Critic :=
  ⟨c.promptTemplate, c.sampling, c.evaluateAllTools, c.evaluateTools⟩

/-! ### JSON -/

open Json

/-- The binary number of 32 bits nearest to a JSON number. -/
def single? : Json → Option Binary.Extended
  | .number (.int n) => some (Binary.single.ofInt n)
  | .number (.float x) => some (Binary.single.ofFinite x)
  | _ => none

/-- Any string that names a place in the file system. -/
def pathFormat : Format := .text "path string" fun _ => .ok ()

/-- A record whose fields may all be left out, the names of its fields, and its normal form when
all are left out. -/
structure Section where
  name : String
  fields : List String
  format : Format
  usual : Json

/-- The record of a name and its fields, each with its usual value. -/
def Section.of (name : String) (fields : List (String × Format × Json)) : Section where
  name := name
  fields := fields.map (·.1)
  format := .open_ name (fields.map fun (k, f, v) =>
    (k, if v.isNull then .nullable else .default v, f))
  usual := .object (fields.map fun (k, _, v) => (k, v))

/-- A section as a field of a record. -/
def Section.field (name : String) (s : Section) : String × Format × Json := (name, s.format, s.usual)

/-- The number one fifth. -/
def oneFifth : Json := .number (.float ⟨false, 7205759403792794, -55⟩)

/-- The section about runs. -/
def agentSection : Section := .of "AgentSection"
  [("max_turns", .u32, .nat 20), ("max_duration_secs", .u64, .nat 300),
    ("system_prompt", .string, .null)]

/-- The section about the failure policy. -/
def policySection : Section := .of "PolicySection"
  [("max_retries", .u32, .nat 2), ("base_backoff_ms", .u64, .nat 500),
    ("use_fallbacks", .bool, .bool true), ("ask_user_when_missing_fields", .bool, .bool true)]

/-- The section about tool calls. -/
def toolsSection : Section := .of "ToolsSection"
  [("default_timeout_secs", .u64, .nat 30), ("working_dir", pathFormat, .null),
    ("repair_output", .bool, .bool true)]

/-- The section about the planner. -/
def plannerSection : Section := .of "PlannerSection"
  [("max_tokens", .u32, .nat 1024), ("temperature", .float "f32", oneFifth)]

/-- The section about the critic. -/
def criticSection : Section := .of "CriticSection"
  [("enabled", .bool, .bool true), ("evaluate_all_tools", .bool, .bool true),
    ("evaluate_tools", .list .string, .array []),
    ("prompt_template", .string, .string Critic.standardTemplate),
    ("max_tokens", .u32, .nat 256), ("temperature", .float "f32", .nat 0)]

/-- The section about observations. -/
def observationSection : Section := .of "ObservationSection"
  [("summary_max_chars", .count, .nat 200), ("max_facts", .count, .nat 16),
    ("fact_max_chars", .count, .nat 120)]

/-- The section about the digest. -/
def memorySection : Section := .of "MemorySection"
  [("digest_max_entries", .count, .nat 32), ("decision_log_max", .count, .nat 16)]

/-- The section about the store. -/
def storeSection : Section := .of "StoreSection"
  [("kind", .choice ["memory", "file"], .string "memory"), ("dir", pathFormat, .string "./state")]

/-- All sections. -/
def settingsSection : Section := .of "AppConfig"
  [agentSection.field "agent", policySection.field "policy", toolsSection.field "tools",
    plannerSection.field "planner", criticSection.field "critic",
    observationSection.field "observation", memorySection.field "memory",
    storeSection.field "store"]

/-- The sampling of a section. -/
def sampling? (j : Json) : Option Sampling := do
  return ⟨← j.part? "max_tokens" nat?, ← j.part? "temperature" single?⟩

/-- The settings of the section about the critic. -/
def CriticSettings.ofSection? (j : Json) : Option CriticSettings := do
  return {
    enabled := ← j.part? "enabled" bool?
    evaluateAllTools := ← j.part? "evaluate_all_tools" bool?
    evaluateTools := ← j.part? "evaluate_tools" texts?
    promptTemplate := ← j.part? "prompt_template" text?
    sampling := ← sampling? j }

/-- The settings of all sections. -/
def Settings.ofSections? (j : Json) : Option Settings := do
  let agent ← j.get? "agent"
  let policy ← j.get? "policy"
  let tools ← j.get? "tools"
  let observation ← j.get? "observation"
  let memory ← j.get? "memory"
  let store ← j.get? "store"
  return {
    agent := ⟨← agent.part? "max_turns" nat?, ← agent.part? "max_duration_secs" nat?,
      ← agent.part? "system_prompt" (optional text?)⟩
    policy := ⟨← policy.part? "max_retries" nat?, ← policy.part? "base_backoff_ms" nat?,
      ← policy.part? "use_fallbacks" bool?, ← policy.part? "ask_user_when_missing_fields" bool?⟩
    tools := ⟨← tools.part? "default_timeout_secs" nat?,
      ← tools.part? "working_dir" (optional text?), ← tools.part? "repair_output" bool?⟩
    planner := ← j.part? "planner" sampling?
    critic := ← j.part? "critic" CriticSettings.ofSection?
    observation := ⟨← observation.part? "summary_max_chars" nat?,
      ← observation.part? "max_facts" nat?, ← observation.part? "fact_max_chars" nat?⟩
    memory := ⟨← memory.part? "digest_max_entries" nat?,
      ← memory.part? "decision_log_max" nat?⟩
    store := ⟨← store.part? "kind" fun k => do StoreKind.ofName? (← k.text?),
      ← store.part? "dir" text?⟩ }

/-- The settings that a value holds. -/
def Settings.ofValue (j : Json) : Except Refusal Settings := do
  match Settings.ofSections? (← settingsSection.format.ofValue j) with
  | some s => return s
  | none => throw ⟨.custom "value out of range", none⟩

/-- The settings of the critic that a value holds. -/
def CriticSettings.ofValue (j : Json) : Except Refusal CriticSettings := do
  match CriticSettings.ofSection? (← criticSection.format.ofValue j) with
  | some s => return s
  | none => throw ⟨.custom "value out of range", none⟩

end Conductor

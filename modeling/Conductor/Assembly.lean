import Conductor.Run.Loop
import Conductor.Settings.Sources
import Conductor.Store.Directory
import Conductor.Store.Memory
import Conductor.Tool.Builtin

/-!
# Assembling agents

From settings and the outside collaborators to an agent. Planner, policy and executor share one
registry; the critic asks the model of the planner unless it has its own.

* `Assembly.agent` : the agent;
* `StoreSettings.store` : the store that the settings name;
* `runGoal` : a run with the settings that their sources say.
-/

namespace Conductor

/-- What the stores of the settings hold: a table and files. -/
abbrev Storage := StateStore.Table × Files

/-- The store that the settings name. -/
def StoreSettings.store (s : StoreSettings) : StateStore Storage :=
  match s.kind with
  | .memory => StateStore.memory.onFirst
  | .file => (StateStore.directory (Files.pathOf s.dir)).onSecond

/-- What an agent is assembled from besides its settings. -/
structure Assembly (σ : Type) where
  registry : Registry
  store : StateStore σ
  model : Model
  criticModel : Option Model
  /-- Goes before the system prompt of the settings. -/
  systemPrompt : Option String
  elapsed : Nat → Duration

namespace Assembly

variable {σ : Type}

/-- What the model is told about its task. -/
def promptText (a : Assembly σ) (s : Settings) : String :=
  ((a.systemPrompt).or s.agent.systemPrompt).getD Planner.standardSystemPrompt

/-- The executor of an agent. -/
def executor (a : Assembly σ) (s : Settings) : Executor :=
  { Executor.plain a.registry s.tools.defaultTimeoutSecs with
    workingDir := s.tools.workingDir.getD "." }

/-- The agent of some settings. -/
def agent (a : Assembly σ) (s : Settings) : Agent σ where
  planner := ⟨a.promptText s, s.planner⟩
  critic := if s.critic.enabled then some s.critic.critic else none
  executor := a.executor s
  normalizer := .plain s.observation a.registry.fallbacks
  digestLimits := s.memory
  store := some a.store
  repairsOutput := s.tools.repairOutput
  model := a.model
  criticModel := a.criticModel
  elapsed := a.elapsed

/-- The files in which a system prompt is looked for. -/
def promptFiles : List String := ["config/prompts/system.md", "../config/prompts/system.md"]

/-- The assembly with the system prompt from a file, if there is one. -/
def withPromptFrom (a : Assembly σ) (files : Files) : Assembly σ :=
  { a with systemPrompt := (files.readFirst? promptFiles).or a.systemPrompt }

/-- A run with the settings that their sources say, `none` when it never ends. Planner and critic
ask the same model. -/
def runGoal (sources : Sources) (tools : Registry) (model : Model) (elapsed : Nat → Duration)
    (runId : String) (goal : Goal) :
    Except Settings.Fault (Outside Storage (Option Report)) := do
  let settings ← sources.settings
  let assembly : Assembly Storage :=
    ⟨tools, settings.store.store, model, none, none, elapsed⟩
  return (assembly.agent settings).run runId goal settings.budget settings.failurePolicy

end Assembly

end Conductor

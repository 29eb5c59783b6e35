import Conductor.Assembly
import Conductor.Proofs.Policy
import Conductor.Proofs.Run.Parallel
import Conductor.Proofs.Run.Rehearsed
import Conductor.Proofs.Tool.Visibility

/-!
# Runs without the tools that are switched off

Every part of an agent that looks a tool up asks the registry for what it shows. Registries that
show the same tools are therefore the same to the planner, the policy, the executor and the
normalizer, and to whole runs.

* `Registry.Indistinguishable` : nothing tells one registry from the other;
* `Registry.Alike.indistinguishable` : **so it is if they show the same tools;**
* `Registry.disabled_invisible` : **a tool that is switched off might as well not be registered.**
-/

namespace Conductor

namespace Agent

variable {σ : Type} {a a' : Agent σ} {p : Prompt}

theorem askPlanner_congr (h : a.model = a'.model) : a.askPlanner p = a'.askPlanner p := by
  rw [askPlanner, askPlanner, h]

theorem askCritic_congr (h : a.model = a'.model) (hcritic : a.criticModel = a'.criticModel) :
    a.askCritic p = a'.askCritic p := by
  rw [askCritic, askCritic, h, hcritic]

end Agent

namespace Registry

/-- Nothing that looks at a registry tells one of them from the other: neither what a registry shows
itself, nor the model that is sent the prompts, nor how decisions are resolved, nor how calls are
executed, nor whole runs of the agents that are assembled with them. -/
structure Indistinguishable (r r' : Registry) : Prop where
  get : ∀ name, r.get? name = r'.get? name
  names : r.names = r'.names
  catalogSection : r.catalogSection = r'.catalogSection
  prompt : ∀ (p : Planner) (state : RunState), p.prompt r state = p.prompt r' state
  fallbacks : r.fallbacks = r'.fallbacks
  observe : ∀ (n : Normalizer) (tool : String) (raw : Json) (result : Result),
    { n with fallbacks := r.fallbacks }.observe tool raw result =
      { n with fallbacks := r'.fallbacks }.observe tool raw result
  execute : ∀ {σ : Type} (x : Executor) (c : Call) (n : Nat) (s : Session σ),
    ({ x with registry := r }.execute c n).run s = ({ x with registry := r' }.execute c n).run s
  repair : ∀ (x : Executor) (result : Result),
    { x with registry := r }.repair? result = { x with registry := r' }.repair? result
  retryPolicyFor : ∀ (p : FailurePolicy) (c : Call), p.retryPolicyFor r c = p.retryPolicyFor r' c
  standIn : ∀ (p : FailurePolicy) (c : Call), p.standIn? r c = p.standIn? r' c
  resolve : ∀ (p : FailurePolicy) (d : Decision) (last : Option Observation) (state : RunState),
    p.resolve r d last state = p.resolve r' d last state
  run : ∀ {σ : Type} (asm : Assembly σ) (settings : Settings) (runId : String) (goal : Goal)
    (budget : Budget) (policy : FailurePolicy) (s : Session σ),
    (({ asm with registry := r }.agent settings).run runId goal budget policy).run s =
      (({ asm with registry := r' }.agent settings).run runId goal budget policy).run s

namespace Alike

variable {r r' : Registry} (h : Alike r r')

include h

/-! ### Planner and policy -/

theorem prompt (p : Planner) (state : RunState) : p.prompt r state = p.prompt r' state := by
  rw [Planner.prompt, Planner.prompt, Planner.userText, Planner.userText, h.catalogSection]

theorem retryPolicyFor (p : FailurePolicy) (c : Call) :
    p.retryPolicyFor r c = p.retryPolicyFor r' c := by
  rw [FailurePolicy.retryPolicyFor, FailurePolicy.retryPolicyFor, h.get]

theorem standIn? (p : FailurePolicy) (c : Call) : p.standIn? r c = p.standIn? r' c := by
  simp only [FailurePolicy.standIn?, h.get]

theorem resolve (p : FailurePolicy) (d : Decision) (last : Option Observation)
    (state : RunState) : p.resolve r d last state = p.resolve r' d last state :=
  FailurePolicy.resolve_congr (h.retryPolicyFor p) (h.standIn? p) d last state

/-! ### Executor -/

theorem outcomeUnder {σ : Type} (violations : Json → Json → List String) (x : Executor)
    (c : Call) (n : Nat) :
    ({ x with registry := r }.outcomeUnder violations c n : Outside σ Result) =
      { x with registry := r' }.outcomeUnder violations c n := by
  simp only [Executor.outcomeUnder, h.get]
  rfl

theorem execute {σ : Type} (x : Executor) (c : Call) (n : Nat) :
    ({ x with registry := r }.execute c n : Outside σ Result) =
      { x with registry := r' }.execute c n := by
  rw [Executor.execute, Executor.execute, Executor.executeUnder, Executor.executeUnder,
    h.outcomeUnder]

theorem repair? (x : Executor) (result : Result) :
    { x with registry := r }.repair? result = { x with registry := r' }.repair? result := by
  simp only [Executor.repair?, Executor.repairUnder?, h.get]

/-! ### Whole runs -/

/-- **Agents that are assembled with the one and the other agree in all that they do.** -/
theorem parallel {σ : Type} (asm : Assembly σ) (settings : Settings) :
    Agent.Parallel 0 Eq ({ asm with registry := r }.agent settings)
      ({ asm with registry := r' }.agent settings) where
  now s _ hs := hs ▸ (Nat.zero_add _).symm
  note _ := .of_eq rfl
  emit _ := .of_eq rfl
  look := .of_eq rfl
  perform deadline x := by
    have hdeadline : deadline.map (0 + ·) = deadline := by simp
    rw [hdeadline]
    exact .of_eq rfl
  prompt state := h.prompt _ state
  resolve policy state d := h.resolve policy d _ state
  askPlanner _ := .of_eq (Agent.askPlanner_congr rfl)
  askCritic _ := .of_eq (Agent.askCritic_congr rfl rfl)
  critic := rfl
  outcome c n := .of_eq (h.outcomeUnder _ (asm.executor settings) c n)
  repair result := h.repair? (asm.executor settings) result
  repairsOutput := rfl
  normalizer := congrArg (Normalizer.plain settings.observation) h.fallbacks
  digestLimits := rfl
  save runId state s _ hs := by
    subst hs
    exact ⟨trivial, rfl⟩

theorem indistinguishable : Indistinguishable r r' where
  get := h.get
  names := h.names
  catalogSection := h.catalogSection
  prompt := h.prompt
  fallbacks := h.fallbacks
  observe n tool raw result := by rw [h.fallbacks]
  execute x c n s := by rw [h.execute]
  repair := h.repair?
  retryPolicyFor := h.retryPolicyFor
  standIn := h.standIn?
  resolve := h.resolve
  run asm settings := (h.parallel asm settings).run_eq rfl rfl

end Alike

/-- **A tool that is switched off might as well not be registered**: without it the registry is as
the changes of the other tools have made it, and nothing tells this registry from the one with the
tool. -/
theorem disabled_invisible {cs : List Change} {name : String} {e : Entry}
    (h : Keyed.get? (made cs) name = some e) (hoff : e.enabled = false) :
    Keyed.erase (made cs) name = made (cs.filter fun c => c.name != name) ∧
      Indistinguishable (made cs) (made (cs.filter fun c => c.name != name)) := by
  have herase := erase_made cs name
  refine ⟨herase, ?_⟩
  rw [← herase]
  exact (alike_erase h hoff).indistinguishable

/-- A tool for which another one may stand in. -/
def fetching : Tool := { Tool.rehearsed "fetch" [] with fallback := some "cache" }

/-- The other one is registered and switched off. -/
def uncached : List Change :=
  [.register fetching, .register (.rehearsed "cache" []), .setEnabled "cache" false]

/-- The tool alone is registered, and nothing can stand in for it. -/
theorem disabled_invisible_uncached : Keyed.contains (made uncached) "cache" = true ∧
    Keyed.erase (made uncached) "cache" = made [.register fetching] ∧
    Indistinguishable (made uncached) (made [.register fetching]) :=
  ⟨by decide, @disabled_invisible uncached "cache" ⟨.rehearsed "cache" [], false⟩ rfl rfl⟩

end Registry

end Conductor

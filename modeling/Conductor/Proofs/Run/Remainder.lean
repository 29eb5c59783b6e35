import Conductor.Proofs.Keyed
import Conductor.Proofs.Policy
import Conductor.Proofs.Run.Rehearsed

/-!
# What is left of an agent

Models and tools answer by the number of the request. An agent that takes over after some requests
have been answered has models and tools that go on from there. Apart from that it is the same
agent: it shows the model the same catalogue, and its policy decides alike.

* `Model.after`, `Tool.after`, `Registry.after` : models and tools that go on after some requests;
* `Reply.play_after`, `Outcome.play_after` : **what is left of a script is the rest of the script;**
* `Agent.remainder`, `Agent.remainder_rehearsed` : what is left of an agent in an outside;
* `Agent.remainder_prompt`, `Agent.remainder_resolve`, `Agent.remainder_repair` : what does not
  depend on models and bodies of tools is the same.
-/

namespace Conductor

/-! ### Models and tools -/

/-- The model after it has been asked a number of times. -/
def Model.after (m : Model) (n : Nat) : Model := fun i p => m (n + i) p

/-- What is left of a script is the rest of the list. -/
theorem Reply.play_after (replies : List Reply) (fallback : Option String) (n : Nat) :
    Model.after (Reply.play replies fallback) n = Reply.play (replies.drop n) fallback := by
  funext i p
  rw [Model.after, Reply.play, Reply.play, List.getElem?_drop]

/-- The tool after it has been invoked a number of times. -/
def Tool.after (t : Tool) (n : Nat) : Tool := { t with body := fun i => t.body (n + i) }

/-- The outcomes that are left after a number of invocations; the last one is played again. -/
def Outcome.rest (script : List Outcome) (n : Nat) : List Outcome :=
  if n < script.length then script.drop n else script.getLast?.toList

theorem Outcome.nth_rest (script : List Outcome) (n i : Nat) :
    Outcome.nth (Outcome.rest script n) i = Outcome.nth script (n + i) := by
  unfold Outcome.nth Outcome.rest
  split
  · rename_i h
    rw [List.getElem?_drop, List.getLast?_drop, if_neg (by omega)]
  · rename_i h
    -- the list is used up, and its last outcome is played from here on
    rw [List.getElem?_eq_none (by omega : script.length ≤ n + i), Option.none_or]
    cases script.getLast? with
    | none => rfl
    | some o => cases i <;> rfl

/-- What is left of a script is the rest of the list, or its last outcome again and again. -/
theorem Outcome.play_after (name : String) (script : List Outcome) (n : Nat) :
    (Tool.rehearsed name script).after n = Tool.rehearsed name (Outcome.rest script n) := by
  have hbody : (fun i => Outcome.play script (n + i)) = Outcome.play (Outcome.rest script n) := by
    funext i args ctx
    simp only [Outcome.play, Outcome.nth_rest]
  simp only [Tool.after, Tool.rehearsed, hbody]

namespace Registry

/-- The registry after each tool has been invoked a number of times. -/
def after (r : Registry) (count : String → Nat) : Registry :=
  Keyed.mapValues r fun e => { e with tool := e.tool.after (count e.tool.name) }

variable (r : Registry) (count : String → Nat)

theorem get?_after (name : String) :
    (r.after count).get? name = (r.get? name).map fun t => t.after (count t.name) := by
  unfold get? after
  rw [Keyed.get?_mapValues]
  cases Keyed.get? r name with
  | none => rfl
  | some e =>
    obtain ⟨tool, enabled⟩ := e
    cases enabled <;> rfl

theorem enabled_after :
    (r.after count).enabled = r.enabled.map fun t => t.after (count t.name) := by
  unfold enabled after Keyed.mapValues
  rw [List.filter_map, List.map_map, List.map_map]
  rfl

/-- **The catalogue is the same.** -/
theorem catalogSection_after : (r.after count).catalogSection = r.catalogSection := by
  unfold catalogSection
  rw [enabled_after, List.flatMap_map]
  rfl

theorem foldl_register_after (ts : List Tool) :
    (ts.foldl register r).after count =
      (ts.map fun t => t.after (count t.name)).foldl register (r.after count) := by
  induction ts generalizing r with
  | nil => rfl
  | cons t ts ih =>
    rw [List.foldl_cons, ih, List.map_cons, List.foldl_cons]
    congr 1
    exact Keyed.mapValues_insert ..

/-- What is left of the tools of a list is the list of what is left of each. -/
theorem ofList_after (ts : List Tool) :
    (ofList ts).after count = ofList (ts.map fun t => t.after (count t.name)) :=
  foldl_register_after empty count ts

/-- What a tool declares, whatever its body does, is the same. -/
theorem declared_after {α : Type} (name : String) (f : Tool → Option α)
    (hf : ∀ t n, f (Tool.after t n) = f t) :
    ((r.after count).get? name >>= f) = (r.get? name >>= f) := by
  rw [get?_after]
  cases r.get? name with
  | none => rfl
  | some t => exact hf t _

end Registry

namespace FailurePolicy

variable (p : FailurePolicy) (r : Registry) (count : String → Nat)

theorem retryPolicyFor_after (c : Call) :
    p.retryPolicyFor (r.after count) c = p.retryPolicyFor r c := by
  unfold retryPolicyFor
  rw [r.declared_after count c.name Tool.retryPolicy fun _ _ => rfl]

theorem standIn?_after (c : Call) : p.standIn? (r.after count) c = p.standIn? r c := by
  unfold standIn?
  simp only [Registry.get?_after, Option.isNone_map]
  cases r.get? c.name <;> rfl

/-- **The policy decides alike.** -/
theorem resolve_after (d : Decision) (last : Option Observation) (state : RunState) :
    p.resolve (r.after count) d last state = p.resolve r d last state :=
  resolve_congr (p.retryPolicyFor_after r count) (p.standIn?_after r count) d last state

end FailurePolicy

/-! ### Agents -/

/-- How often a tool has been invoked. -/
def Session.invoked {σ : Type} (s : Session σ) (name : String) : Nat :=
  (s.invocations.get? name).getD 0

namespace Agent

variable {σ : Type} (a : Agent σ) (k : Session σ) (elapsed : Nat → Duration)

/-- What is left of an agent in an outside. The time is taken anew. -/
def remainder : Agent σ :=
  { a with
    executor := { a.executor with registry := a.executor.registry.after k.invoked }
    model := a.model.after k.plannerCalls
    criticModel := a.criticModel.map (Model.after · k.criticCalls)
    elapsed := elapsed }

/-- **What is left of a rehearsed agent is rehearsed with what is left of the scripts.** -/
theorem remainder_rehearsed (k : Session StateStore.Table) (tools : List Tool)
    (replies : List Reply) :
    (rehearsed tools replies).remainder k (fun _ => .zero) =
      rehearsed (tools.map fun t => t.after (k.invoked t.name)) (replies.drop k.plannerCalls) := by
  simp only [remainder, rehearsed, Executor.plain, Registry.ofList_after, Reply.play_after]
  rfl

theorem remainder_prompt (state : RunState) :
    (a.remainder k elapsed).planner.prompt (a.remainder k elapsed).executor.registry state =
      a.planner.prompt a.executor.registry state := by
  simp only [remainder, Planner.prompt, Planner.userText, Registry.catalogSection_after]

theorem remainder_resolve (policy : FailurePolicy) (state : RunState) (d : Decision) :
    (a.remainder k elapsed).resolve policy state d = a.resolve policy state d :=
  FailurePolicy.resolve_after ..

theorem remainder_repair (r : Result) :
    (a.remainder k elapsed).executor.repair? r = a.executor.repair? r := by
  simp only [remainder, Executor.repair?, Executor.repairUnder?, Registry.get?_after]
  cases a.executor.registry.get? r.call.name <;> rfl

end Agent

end Conductor

import Conductor.Proofs.Run.Visibility

/-!
# Tools that are offered to stand in

The observation of a failure offers the tool that the failed one names to stand in for it. The names
are collected when the agent is assembled, and nobody asks then whether they are names of tools. The
policy asks for it when it is about to call the other tool. So what is offered is what is named, and
what stands in is what is offered and exists.

* `Normalizer.offers_iff` : what the normalizer offers;
* `Registry.Named`, `Registry.named_made` : every tool stands under its own name;
* `Registry.Named.get?_fallbacks` : **the normalizer is told what every enabled tool names;**
* `Registry.offered_iff` : **what is offered, and when it stands in** (`Registry.offer_of_nothing`).
-/

namespace Conductor

/-! ### The normalizer -/

namespace Normalizer

variable {n : Normalizer} {tool f : String} {raw : Json} {result : Result}

/-- Only repetitions are left out. -/
theorem mem_distinct {l : List String} {x : String} : x ∈ distinct l ↔ x ∈ l := by
  suffices h : ∀ acc : List String,
      x ∈ l.foldl (fun acc a => if acc.contains a then acc else acc ++ [a]) acc ↔
        x ∈ acc ∨ x ∈ l by
    simpa [distinct] using h []
  induction l with
  | nil => simp
  | cons a l ih =>
    intro acc
    rw [List.foldl_cons, ih]
    by_cases ha : a ∈ acc
    · rw [if_pos (by simpa using ha), List.mem_cons]
      constructor
      · rintro (h | h)
        · exact .inl h
        · exact .inr (.inr h)
      · rintro (h | rfl | h)
        · exact .inl h
        · exact .inl ha
        · exact .inr h
    · rw [if_neg (by simpa using ha)]
      simp [or_assoc]

/-- No other suggestion begins like the one to fall back on a tool. -/
theorem fallback_ne {s : String} (h : s.toList.head? ≠ some 'f') : "fallback_tool_" ++ f ≠ s := by
  rintro rfl
  exact h (by simp)

/-- **After a failure the tool is offered that the normalizer knows to fall back on**, and no
other. -/
theorem offers_iff (hfailed : result.ok = false) :
    "fallback_tool_" ++ f ∈ n.affordances tool raw result ↔ n.fallbacks.get? tool = some f := by
  have hretry : "fallback_tool_" ++ f ∉ if result.code.isTransient then ["retry"] else [] := by
    split
    · simpa using fallback_ne (by decide)
    · simp
  have hparam : "fallback_tool_" ++ f ∉
      result.missingFields.map fun field => "retry_with_param_" ++ field := by
    intro hmem
    obtain ⟨field, -, heq⟩ := List.mem_map.1 hmem
    exact fallback_ne (by simp) heq.symm
  have hbroaden : "fallback_tool_" ++ f ∉
      if result.code = .noResults then ["broaden_query"] else [] := by
    split
    · simpa using fallback_ne (by decide)
    · simp
  rw [affordances, if_neg (by simp [hfailed]), mem_distinct]
  simp [hretry, hparam, hbroaden]

end Normalizer

/-! ### The registry -/

namespace Registry

variable {r : Registry} {name : String}

/-- An enabled tool is one that stands in the registry and is switched on. -/
theorem get?_eq_some_iff {t : Tool} :
    r.get? name = some t ↔ ∃ e, Keyed.get? r name = some e ∧ e.enabled = true ∧ e.tool = t := by
  unfold get?
  cases Keyed.get? r name <;> simp

/-- Every tool stands under its own name. -/
def Named (r : Registry) : Prop := ∀ p ∈ r.entries, p.2.tool.name = p.1

theorem Named.apply (h : r.Named) (c : Change) : (c.apply r).Named := by
  intro p hp
  cases c with
  | register t =>
    rcases mem_insertByKey hp with rfl | hp
    · rfl
    · exact h p hp
  | setEnabled name enabled =>
    rw [Change.apply, setEnabled] at hp
    split at hp
    · rename_i e he
      rcases mem_insertByKey hp with rfl | hp
      · exact h (name, e) (Keyed.mem_of_get? he)
      · exact h p hp
    · exact h p hp

/-- **So it is in every registry that was made by changes.** -/
theorem named_made (cs : List Change) : (made cs).Named :=
  List.foldlRecOn cs _ (motive := Named) (fun _ hp => absurd hp List.not_mem_nil)
    fun _ hr c _ => hr.apply c

namespace Named

variable (h : r.Named)

include h

/-- The enabled tools stand in the order of their names. -/
theorem pairwise_enabled : r.enabled.Pairwise fun t u => t.name < u.name := by
  rw [enabled, List.pairwise_map]
  refine (r.ordered.filter _).imp_of_mem fun {p q} hp hq hlt => ?_
  rw [h p (List.mem_filter.1 hp).1, h q (List.mem_filter.1 hq).1]
  exact hlt

theorem mem_enabled_iff {t : Tool} : t ∈ r.enabled ∧ t.name = name ↔ r.get? name = some t := by
  rw [get?_eq_some_iff, enabled, List.mem_map]
  constructor
  · rintro ⟨⟨p, hp, rfl⟩, rfl⟩
    obtain ⟨hmem, hon⟩ := List.mem_filter.1 hp
    refine ⟨p.2, Keyed.get?_of_mem ?_, hon, rfl⟩
    rw [h p hmem]
    exact hmem
  · rintro ⟨e, he, hon, rfl⟩
    have hmem := Keyed.mem_of_get? he
    exact ⟨⟨(name, e), List.mem_filter.2 ⟨hmem, hon⟩, rfl⟩, h _ hmem⟩

/-- **The normalizer is told of every enabled tool which one it names to stand in for it.** -/
theorem get?_fallbacks : r.fallbacks.get? name = (r.get? name).bind Tool.fallback := by
  have hordered : KeyOrdered (r.enabled.filterMap fun t => t.fallback.map fun f => (t.name, f)) := by
    rw [KeyOrdered, List.pairwise_filterMap]
    refine h.pairwise_enabled.imp fun {t u} hlt p hp q hq => ?_
    obtain ⟨f, -, rfl⟩ := Option.map_eq_some_iff.1 hp
    obtain ⟨g, -, rfl⟩ := Option.map_eq_some_iff.1 hq
    exact hlt
  have hentries := Keyed.ofList_entries hordered
  refine Option.ext fun f => ?_
  calc r.fallbacks.get? name = some f
      ↔ (name, f) ∈ r.fallbacks.entries := ⟨Keyed.mem_of_get?, Keyed.get?_of_mem⟩
    _ ↔ ∃ t ∈ r.enabled, t.fallback = some f ∧ t.name = name := by
      rw [fallbacks, hentries, List.mem_filterMap]
      simp [and_comm]
    _ ↔ (r.get? name).bind Tool.fallback = some f := by
      rw [Option.bind_eq_some_iff]
      refine exists_congr fun t => ?_
      rw [← h.mem_enabled_iff, and_assoc, and_comm (a := t.fallback = some f)]

end Named

/-! ### The agent -/

variable {σ : Type}

/-- What an agent that is assembled with these tools observes of a result. -/
def observed (cs : List Change) (asm : Assembly σ) (settings : Settings) (name : String)
    (raw : Json) (result : Result) : Observation :=
  ({ asm with registry := made cs }.agent settings).normalizer.observe name raw result

/-- **What is offered and what stands in.** When an enabled tool has failed, the observation offers
just the tool that the failed one names. A policy that lets tools stand in calls a tool for it
exactly if it is offered, is another one, and is enabled. -/
theorem offered_iff (cs : List Change) (asm : Assembly σ) (settings : Settings) {t : Tool}
    (hget : (made cs).get? name = some t) (raw : Json) {result : Result}
    (hfailed : result.ok = false) (f : String) :
    let o := observed cs asm settings name raw result
    ("fallback_tool_" ++ f ∈ o.affordances ↔ t.fallback = some f) ∧
    ∀ (p : FailurePolicy) (args : Json), p.useFallbacks = true →
      (p.standIn? (made cs) ⟨name, args⟩ = some f ↔
        "fallback_tool_" ++ f ∈ o.affordances ∧ f ≠ name ∧ ∃ u, (made cs).get? f = some u) := by
  intro o
  have hoffered : "fallback_tool_" ++ f ∈ o.affordances ↔ t.fallback = some f := by
    have hfallbacks : (made cs).fallbacks.get? name = t.fallback := by
      rw [(named_made cs).get?_fallbacks, hget, Option.bind_some]
    rw [← hfallbacks]
    exact Normalizer.offers_iff hfailed
  refine ⟨hoffered, ?_⟩
  intro p args hallowed
  rw [FailurePolicy.standIn?_eq_some_iff, hoffered]
  simp [hget, hallowed]

open StateStore (Table)

/-- An assembly without a model that answers. -/
def bare : Assembly Table := ⟨.empty, .memory, Reply.play [] none, none, none, fun _ => .zero⟩

/-- What is told of the tool when it has failed. -/
def unfetched : Result := .failure ⟨"fetch", .object []⟩ 1 .toolBug "no route"

/-- The tool that may be fetched instead is offered, but it is switched off and does not stand in. -/
theorem offered_iff_uncached :
    "fallback_tool_cache" ∈ (observed uncached bare .standard "fetch" .null unfetched).affordances ∧
    FailurePolicy.standard.standIn? (made uncached) ⟨"fetch", .object []⟩ ≠ some "cache" := by
  have hget : (made uncached).get? "fetch" = some fetching := rfl
  have hfailed : unfetched.ok = false := rfl
  obtain ⟨hoffered, hstands⟩ := offered_iff uncached bare .standard hget .null hfailed "cache"
  have hoffer := hoffered.2 rfl
  refine ⟨hoffer, ?_⟩
  rw [Ne, hstands .standard (.object []) rfl]
  rintro ⟨-, -, u, hu⟩
  cases hu

/-- A tool can be offered that is switched off. -/
theorem offer_of_nothing : ¬ ∀ (cs : List Change) (asm : Assembly Table) (settings : Settings)
    (name : String) (t : Tool), (made cs).get? name = some t →
    ∀ (raw : Json) (result : Result), result.ok = false → ∀ f,
      "fallback_tool_" ++ f ∈ (observed cs asm settings name raw result).affordances →
        f ≠ name ∧ ∃ u, (made cs).get? f = some u := by
  intro hall
  obtain ⟨-, u, hu⟩ := hall uncached bare .standard "fetch" fetching rfl .null unfetched rfl "cache"
    (by decide +kernel)
  cases hu

end Registry

end Conductor

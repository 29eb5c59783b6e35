import Conductor.State

/-!
# How deep a state is nested

In the JSON of a state the arguments of the last call stand three and four brackets deeper than in
the reply that gave them, and the output of its tool stands three deeper. Nothing else in a state is
nested without a bound.

* `RunState.Shallow` : the arguments and the output leave room for this;
* `RunState.depth_encode_le` : **the JSON of a state opens at most 127 brackets at once just if they
  do.**
-/

namespace Conductor

open Json

theorem Json.depth_nat (n : Nat) : (Json.nat n).depth = 0 := rfl

theorem Json.depth_strings (l : List String) : (Json.strings l).depth = 1 := by
  have hitems : depthItems (l.map Json.string) = 0 := by
    induction l with
    | nil => rfl
    | cons s l ih => simp [depthItems, depth, ih]
  rw [Json.strings, depth, hitems]

theorem Json.depthMembers_map_le {α : Type} {write : α → Json} {n : Nat} {l : List (String × α)}
    (h : ∀ p ∈ l, (write p.2).depth ≤ n) : depthMembers (l.map fun p => (p.1, write p.2)) ≤ n := by
  induction l with
  | nil => exact Nat.zero_le n
  | cons p l ih =>
    exact Nat.max_le.2 ⟨h p (List.mem_cons_self ..), ih fun q hq => h q (List.mem_cons_of_mem _ hq)⟩

theorem Duration.depth_encode (d : Duration) : (codec.encode d).depth = 1 := rfl

theorem Call.depth_encode (c : Call) : (codec.encode c).depth = 1 + c.args.depth := by
  simp [codec, members, depth, depthMembers]

theorem Result.depth_encode (r : Result) :
    (codec.encode r).depth = 1 + max (1 + r.call.args.depth) r.data.depth := by
  have hcode : (ErrorCode.codec.encode r.code).depth = 0 := rfl
  have hdetail : (Json.ofOption Json.string r.detail).depth = 0 := by cases r.detail <;> rfl
  have hretry : (Json.ofOption Duration.codec.encode r.retryAfter).depth ≤ 1 := by
    cases r.retryAfter with
    | none => exact Nat.zero_le 1
    | some d => exact Nat.le_of_eq d.depth_encode
  simp only [codec, depth, depthMembers, Call.depth_encode, hcode, hdetail, depth_strings,
    Duration.depth_encode, depth_nat]
  omega

theorem Observation.depth_encode (o : Observation) :
    (codec.encode o).depth = 2 + max (1 + o.result.call.args.depth) o.result.data.depth := by
  have hfacts : depthMembers (o.facts.entries.map fun p => (p.1, Json.string p.2)) ≤ 0 :=
    depthMembers_map_le fun _ _ => Nat.le_refl 0
  simp only [codec, depth, depthMembers, factsJson, Result.depth_encode, depth_strings]
  omega

theorem Action.depth_encode_le (x : Action) : (codec.encode x).depth ≤ 126 ↔
    ∀ c n w, x = .callTool c n w → c.args.depth ≤ 124 := by
  cases x with
  | callTool c n w =>
    have hdepth : (codec.encode (.callTool c n w)).depth = 2 + c.args.depth := by
      simp only [codec, tagged, depth, depthMembers, Call.depth_encode, Duration.depth_encode,
        depth_nat]
      omega
    rw [hdepth]
    constructor
    · rintro h _ _ _ ⟨⟩
      omega
    · intro h
      have := h c n w rfl
      omega
  | askUser q fields =>
    simp [codec, tagged, depth, depthMembers, depth_strings]
  | stop r => simp [codec, tagged, depth, depthMembers]
  | replan gs => simp [codec, tagged, depth, depthMembers, depth_strings]

theorem Critique.depth_encode (c : Critique) : (codec.encode c).depth = 1 := rfl

theorem Goal.depth_encode (g : Goal) : (codec.encode g).depth = 2 := by
  have hcreated : (Timestamp.codec.encode g.createdAt).depth = 0 := rfl
  simp only [codec, depth, depthMembers, depth_strings, hcreated]
  omega

theorem Budget.depth_encode (b : Budget) : (codec.encode b).depth = 2 := rfl

theorem Digest.depth_encode_le (d : Digest) : (codec.encode d).depth ≤ 3 := by
  have hentries : depthMembers (d.entries.entries.map fun p => (p.1, Entry.codec.encode p.2)) ≤ 1 :=
    depthMembers_map_le fun _ _ => Nat.le_refl 1
  simp only [codec, depth, depthMembers, depth_strings, depth_nat]
  omega

namespace RunState

variable {s : RunState}

/-- The last call and its output are nested so little that the state can be read. -/
structure Shallow (s : RunState) : Prop where
  action : ∀ c n w, s.lastAction = some (.callTool c n w) → c.args.depth ≤ 124
  args : ∀ o, s.lastObservation = some o → o.result.call.args.depth ≤ 123
  data : ∀ o, s.lastObservation = some o → o.result.data.depth ≤ 124

/-- **The JSON of a state opens no more than 127 brackets at once just if its last call and the
output are shallow.** -/
theorem depth_encode_le : (codec.encode s).depth ≤ 127 ↔ s.Shallow := by
  have haction : (Json.ofOption Action.codec.encode s.lastAction).depth ≤ 126 ↔
      ∀ c n w, s.lastAction = some (.callTool c n w) → c.args.depth ≤ 124 := by
    cases s.lastAction with
    | none => simp [Json.ofOption, depth]
    | some x => simpa [Json.ofOption] using x.depth_encode_le
  have hobservation : (Json.ofOption Observation.codec.encode s.lastObservation).depth ≤ 126 ↔
      ∀ o, s.lastObservation = some o →
        o.result.call.args.depth ≤ 123 ∧ o.result.data.depth ≤ 124 := by
    cases s.lastObservation with
    | none => simp [Json.ofOption, depth]
    | some o =>
      have ho := o.depth_encode
      simp only [Json.ofOption, ho, Option.some.injEq, forall_eq']
      omega
  -- only the action and the observation can be nested deeply
  have hcritique : (Json.ofOption Critique.codec.encode s.lastCritique).depth ≤ 1 := by
    cases s.lastCritique with
    | none => exact Nat.zero_le 1
    | some c => exact Nat.le_of_eq c.depth_encode
  have hdigest := s.digest.depth_encode_le
  have hdepth : (codec.encode s).depth ≤ 127 ↔
      (Json.ofOption Action.codec.encode s.lastAction).depth ≤ 126 ∧
        (Json.ofOption Observation.codec.encode s.lastObservation).depth ≤ 126 := by
    simp only [codec, depth, depthMembers, Goal.depth_encode, Budget.depth_encode, depth_strings,
      depth_nat]
    omega
  rw [hdepth, haction, hobservation]
  constructor
  · rintro ⟨h, h'⟩
    exact ⟨h, fun o ho => (h' o ho).1, fun o ho => (h' o ho).2⟩
  · intro h
    exact ⟨h.action, fun o ho => ⟨h.args o ho, h.data o ho⟩⟩

end RunState

end Conductor

import Conductor.Proofs.Run.Chronicle
import Conductor.Proofs.Run.Ending
import Mathlib.Algebra.Group.Nat.Defs

/-!
# The accounts of a run

The loop is given a number of turns at which it would end anyway, and this number never ends it: the
loop without it does the same. What a run does is counted here, turn by turn.

* `Agent.Passes`, `Course.passes` : **the loop without a limit comes to the same end;**
* `Agent.TurnAccount` : how often a turn asks the models;
* `Agent.Accounts` : how many turns a run starts and completes, and what they ask;
* `Agent.run_accounts` : **every run whose models answer ends, within its budget.**
-/

namespace Conductor

/-- A budget without a turn left is used up. -/
theorem Budget.exhausted_of_remaining {b : Budget} {n : Nat} (h : b.remaining n = 0)
    (elapsed : Duration) : b.exhausted n elapsed = true := by
  have hle : b.maxTurns ≤ n := Nat.sub_eq_zero_iff_le.1 h
  simp [exhausted, hle]

namespace Agent

open Outside Session

variable {σ : Type} {a : Agent σ} {runId : String} {policy : FailurePolicy}

/-! ### The loop without a limit -/

variable (a) in
/-- What the loop looks at before a turn, without a limit to their number. -/
def head? (state : RunState) : Outside σ (Option String) := do
  if ← Outside.look then return some stopCancelled
  let elapsed ← a.readElapsed
  return if state.budget.exhausted state.turnIndex elapsed then some stopBudget else none

/-- As long as the limit is what the budget has left, it is not what ends the loop. -/
theorem halt?_remaining (state : RunState) :
    a.halt? (state.budget.remaining state.turnIndex) state = a.head? state := by
  unfold halt? head?
  refine bind_congr fun c => ?_
  cases c with
  | true => rfl
  | false =>
    rw [if_neg Bool.false_ne_true, if_neg Bool.false_ne_true]
    refine bind_congr fun elapsed => ?_
    by_cases hleft : state.budget.remaining state.turnIndex = 0
    · rw [Budget.exhausted_of_remaining hleft, Bool.true_or]
    · rw [beq_false_of_ne hleft, Bool.or_false]

variable (a runId policy) in
/-- The loop without a limit comes to an end, with this verdict and in this state. -/
inductive Passes : RunState → Session σ → Option Verdict → RunState → Session σ → Prop
  | halted {state : RunState} {s s' : Session σ} {r : String}
      (head : (a.head? state).run s = (some r, s')) :
      Passes state s (some (stopped r)) state s'
  | failed {state : RunState} {s s₁ s' : Session σ} {f : TurnFault}
      (head : (a.head? state).run s = (none, s₁))
      (step : (a.step runId policy state).run s₁ = (.error f, s')) :
      Passes state s (verdictOfFault f) state s'
  | ended {state : RunState} {s s₁ s' : Session σ} {o : TurnOutcome} {v : Verdict}
      (head : (a.head? state).run s = (none, s₁))
      (step : (a.step runId policy state).run s₁ = (.ok o, s')) (hv : o.verdict = some v) :
      Passes state s (some v) o.next s'
  | goesOn {state final : RunState} {s s₁ s₂ s' : Session σ} {o : TurnOutcome}
      {v : Option Verdict} (head : (a.head? state).run s = (none, s₁))
      (step : (a.step runId policy state).run s₁ = (.ok o, s₂)) (hv : o.verdict = none)
      (rest : Passes o.next s₂ v final s') :
      Passes state s v final s'

/-- **The loop without a limit takes the course of the loop with one.** -/
theorem Course.passes {left : Nat} {state final : RunState} {s s' : Session σ} {v : Option Verdict}
    {turns : List (a.CompletedTurn runId policy)}
    (h : a.Course runId policy left state s turns v final s')
    (hleft : left = state.budget.remaining state.turnIndex) :
    a.Passes runId policy state s v final s' := by
  induction h with
  | halted halt =>
    subst hleft
    rw [halt?_remaining] at halt
    exact .halted halt
  | failed halt step =>
    rw [hleft, halt?_remaining] at halt
    exact .failed halt step
  | @ended left s t v halt hv =>
    rw [hleft, halt?_remaining] at halt
    exact .ended halt t.completes hv
  | @goesOn left s s' t turns v final halt hv rest ih =>
    rw [hleft, halt?_remaining] at halt
    -- a turn takes one from what the budget has left, as the loop takes one from its limit
    have hrest : left = t.next.budget.remaining t.next.turnIndex := by
      unfold Budget.remaining at hleft ⊢
      rw [t.next_budget, t.next_turnIndex]
      omega
    exact .goesOn halt t.completes hv (ih hrest)

/-! ### One turn -/

variable (a runId policy) in
/-- What a turn that was begun like this does, in numbers. -/
structure TurnAccount (b : RunState × Session σ) (block : List Happening) : Prop where
  /-- It is announced once. -/
  started : block.countP Happening.startsTurn = 1
  /-- It asks for one decision, or for none if it is cancelled. -/
  planner : block.countP Happening.asksPlanner = 1 ∨
    (block.countP Happening.asksPlanner = 0 ∧
      ((a.step runId policy b.1).run b.2).1 = .error .cancelled)
  /-- It asks for at most one critique. -/
  critic : block.countP Happening.asksCritic ≤ 1
  /-- It asks for one only if the policy has made the decision a call. -/
  call_of_critic : 0 < block.countP Happening.asksCritic → ∃ d c n w,
    a.decided runId b.1 b.2 = .ok d ∧ a.resolve policy b.1 d = .callTool c n w

/-- A call starts and completes no turn, and asks for at most one critique. -/
theorem CallDeeds.count {c : Call} {ds : List Happening} (h : a.CallDeeds runId c ds) :
    ds.countP Happening.startsTurn = 0 ∧ ds.countP Happening.completesTurn = 0 ∧
      ds.countP Happening.asksPlanner = 0 ∧ ds.countP Happening.asksCritic ≤ 1 := by
  obtain ⟨hbody, -, hasked⟩ := h
  rcases hasked with rfl | ⟨p, rfl⟩ <;> cases hbody <;>
    simp [List.countP_cons, Happening.startsTurn, Happening.completesTurn, Happening.asksPlanner,
      Happening.asksCritic]

/-- The same is true of every action, and only a call asks for a critique. -/
theorem ActionDeeds.count {action : Action} {ds : List Happening}
    (h : a.ActionDeeds runId action ds) :
    ds.countP Happening.startsTurn = 0 ∧ ds.countP Happening.completesTurn = 0 ∧
      ds.countP Happening.asksPlanner = 0 ∧ ds.countP Happening.asksCritic ≤ 1 ∧
      (0 < ds.countP Happening.asksCritic → ∃ c n w, action = .callTool c n w) := by
  cases h with
  | @call c n w ds h =>
    obtain ⟨hstarts, hcompletes, hplanner, hcritic⟩ := h.count
    exact ⟨hstarts, hcompletes, hplanner, hcritic, fun _ => ⟨c, n, w, rfl⟩⟩
  | ask => exact ⟨rfl, rfl, rfl, Nat.zero_le 1, nofun⟩
  | stop => exact ⟨rfl, rfl, rfl, Nat.zero_le 1, nofun⟩
  | replan => exact ⟨rfl, rfl, rfl, Nat.zero_le 1, nofun⟩

variable (a runId) in
theorem opening_count (state : RunState) :
    (a.opening runId state).countP Happening.startsTurn = 1 ∧
      (a.opening runId state).countP Happening.completesTurn = 0 ∧
      (a.opening runId state).countP Happening.asksPlanner = 1 ∧
      (a.opening runId state).countP Happening.asksCritic = 0 := ⟨rfl, rfl, rfl, rfl⟩

/-- **A completed turn is told to be completed once, and has its account.** -/
theorem CompletedTurn.Did.account {t : a.CompletedTurn runId policy} {ds : List Happening}
    (h : t.Did ds) :
    ds.countP Happening.completesTurn = 1 ∧ a.TurnAccount runId policy (t.before, t.start) ds := by
  obtain @⟨acted, saved, ms, hacted, hsaved⟩ := h
  obtain ⟨hs₁, hc₁, hp₁, hk₁⟩ := a.opening_count runId t.before
  obtain ⟨hs₂, hc₂, hp₂, hk₂, hcall⟩ := hacted.count
  have htail : ∀ p : Happening → Bool, (∀ next, p (.saved runId next) = false) →
      saved.countP p = 0 := by
    intro p hp
    rcases hsaved with rfl | ⟨next, rfl⟩ <;> simp [hp]
  have hs₃ := htail Happening.startsTurn fun _ => rfl
  have hc₃ := htail Happening.completesTurn fun _ => rfl
  have hp₃ := htail Happening.asksPlanner fun _ => rfl
  have hk₃ := htail Happening.asksCritic fun _ => rfl
  refine ⟨?_, ?_, .inl ?_, ?_, ?_⟩
  · simp [List.countP_append, List.countP_cons, hc₁, hc₂, hc₃, Happening.completesTurn]
  · simp [List.countP_append, hs₁, hs₂, hs₃, Happening.startsTurn]
  · simp [List.countP_append, hp₁, hp₂, hp₃, Happening.asksPlanner]
  · simpa [List.countP_append, List.countP_cons, hk₁, hk₃, Happening.asksCritic] using hk₂
  · intro hpos
    simp only [List.countP_append, List.countP_cons, hk₁, hk₃, Happening.asksCritic] at hpos
    obtain ⟨c, n, w, hc⟩ := hcall (by simpa using hpos)
    exact ⟨t.decision, c, n, w, t.decides, hc⟩

/-- **A turn that fails is not told to be completed, and has its account.** -/
theorem FaultDeeds.account {f : TurnFault} {state : RunState} {s s' : Session σ}
    {ds : List Happening} (h : a.FaultDeeds runId s policy state f ds)
    (hstep : (a.step runId policy state).run s = (.error f, s')) :
    ds.countP Happening.completesTurn = 0 ∧ a.TurnAccount runId policy (state, s) ds := by
  obtain ⟨hs₁, hc₁, hp₁, hk₁⟩ := a.opening_count runId state
  cases h with
  | unasked => exact ⟨rfl, rfl, .inr ⟨rfl, by rw [hstep]⟩, Nat.zero_le 1, nofun⟩
  | undone => exact ⟨hc₁, hs₁, .inl hp₁, by omega, by omega⟩
  | @unjudged f d c n w ds hd ha hds =>
    obtain ⟨hs₂, hc₂, hp₂, hk₂⟩ := hds.count
    refine ⟨?_, ?_, .inl ?_, ?_, fun _ => ⟨d, c, n, w, hd, ha⟩⟩
    all_goals
      rw [List.countP_append]
      omega

/-- What is left of a turn that failed has its account, and is not told to be completed. -/
theorem Remnant.account {final : RunState} {s' : Session σ} {v : Option Verdict}
    {failed : List (RunState × Session σ)} {rest : List Happening}
    (h : a.Remnant runId policy final s' v failed rest) :
    rest.countP Happening.completesTurn = 0 ∧
      ∃ blocks, rest = blocks.flatten ∧
        List.Forall₂ (a.TurnAccount runId policy) failed blocks := by
  cases h with
  | whole => exact ⟨rfl, [], rfl, .nil⟩
  | @broken f s ds hstep hshows hopen hindex hds =>
    obtain ⟨hcompletes, haccount⟩ := hds.account hstep
    exact ⟨hcompletes, [rest], by simp, .cons haccount .nil⟩

/-- The loop ends with a verdict if every request to a model comes to an end. -/
theorem Remnant.verdict {final : RunState} {s' : Session σ} {v : Option Verdict}
    {failed : List (RunState × Session σ)} {rest : List Happening}
    (h : a.Remnant runId policy final s' v failed rest) (hret : a.Returns s'.clock.signal) :
    ∃ verdict, v = some verdict := by
  cases h with
  | whole => exact ⟨_, rfl⟩
  | @broken f s ds hstep hshows hopen hindex hds =>
    cases f with
    | stalled => exact absurd hret (hshows.stalled rfl).2
    | _ => exact ⟨_, rfl⟩

/-! ### Whole runs -/

/-- Lists with one hit each have as many hits as there are lists. -/
theorem countP_flatten_eq_length {α β : Type} {R : α → List β → Prop} {p : β → Bool} {l : List α}
    {blocks : List (List β)} (h : List.Forall₂ R l blocks)
    (hR : ∀ x b, R x b → b.countP p = 1) : blocks.flatten.countP p = l.length := by
  induction h with
  | nil => rfl
  | cons hxb _ ih =>
    rw [List.flatten_cons, List.countP_append, hR _ _ hxb, ih, List.length_cons, Nat.add_comm]

variable (a runId policy) in
/-- A run in numbers: how it was told to end, and what was recorded of it. -/
structure Accounts (goal : Goal) (budget : Budget) (s : Session σ) (report : Report)
    (hs : List Happening) : Prop where
  /-- The loop ends, without a limit to the number of its turns. -/
  passes : ∃ first s₁ s₂, (a.begin_ runId goal budget).run s = (first, s₁) ∧
    a.Passes runId policy first s₁ (some report.verdict) report.state s₂
  total : report.totalTurns = report.state.turnIndex
  /-- Every turn that was told to be completed is counted. -/
  counted : report.totalTurns =
    (a.firstState runId goal budget s).turnIndex + hs.countP Happening.completesTurn
  bounded : report.totalTurns ≤ max (a.firstState runId goal budget s).turnIndex
    (a.firstState runId goal budget s).budget.maxTurns
  /-- The budget bounds the turns that are started. -/
  started : hs.countP Happening.startsTurn ≤
    (a.firstState runId goal budget s).budget.maxTurns -
      (a.firstState runId goal budget s).turnIndex
  /-- Apart from what the store is asked for, the record is that of the turns that were begun. -/
  turns : ∃ loaded blocks cleared, deeds hs = loaded ++ blocks.flatten ++ cleared ∧
    (loaded = [] ∨ loaded = [.loaded runId]) ∧ (cleared = [] ∨ cleared = [.cleared runId]) ∧
    List.Forall₂ (a.TurnAccount runId policy) (a.begun runId goal budget policy s) blocks
  /-- The numbers of the turns are numbers of 32 bits. -/
  number : ∀ b ∈ a.begun runId goal budget policy s, b.1.turnIndex + 1 < 2 ^ 32

namespace Chronicle

variable {goal : Goal} {budget : Budget} {s : Session σ}
  (c : a.Chronicle runId goal budget policy s)

/-- All turns that were begun have their accounts. -/
theorem turnAccounts : ∃ blocks, c.blocks.flatten ++ c.rest = blocks.flatten ∧
    List.Forall₂ (a.TurnAccount runId policy) (a.begun runId goal budget policy s) blocks := by
  have hcompleted : List.Forall₂ (a.TurnAccount runId policy)
      ((a.turns runId goal budget policy s).map fun t => (t.before, t.start)) c.blocks :=
    List.forall₂_map_left_iff.2 (c.did.imp fun _ _ h => h.account.2)
  obtain ⟨-, blocks, hrest, hfailed⟩ := c.breaks.account
  refine ⟨c.blocks ++ blocks, by rw [hrest, List.flatten_append], ?_⟩
  rw [c.begun]
  exact List.rel_append hcompleted hfailed

/-- The turns that were told to be completed are those that were. -/
theorem completed : (c.blocks.flatten ++ c.rest).countP Happening.completesTurn =
    (a.turns runId goal budget policy s).length := by
  rw [List.countP_append, countP_flatten_eq_length c.did fun _ _ h => h.account.1,
    c.breaks.account.1, Nat.add_zero]

/-- What the store is asked for is no turn. -/
theorem countP_record {p : Happening → Bool} (hl : p (.loaded runId) = false)
    (hc : p (.cleared runId) = false) :
    (c.loaded ++ (c.blocks.flatten ++ c.rest) ++ c.cleared).countP p =
      (c.blocks.flatten ++ c.rest).countP p := by
  have hloaded : c.loaded.countP p = 0 := by
    rcases c.loads with h | h <;> simp [h, hl]
  have hcleared : c.cleared.countP p = 0 := by
    rcases c.clears with h | h <;> simp [h, hc]
  rw [List.countP_append, List.countP_append, hloaded, hcleared, Nat.zero_add, Nat.add_zero]

/-- The budget bounds the turns that are begun. -/
theorem begun_length : (a.begun runId goal budget policy s).length ≤
    c.first.budget.maxTurns - c.first.turnIndex := by
  cases hlen : (a.begun runId goal budget policy s).length with
  | zero => exact Nat.zero_le _
  | succ k =>
    -- the last turn that was begun was allowed
    have hk : k < (a.begun runId goal budget policy s).length := by omega
    obtain ⟨hindex, hlt, -⟩ := c.begun_spec k _ (List.getElem?_eq_getElem hk)
    omega

end Chronicle

/-- **Every run comes to its end if every request to a model does**, and its turns are counted: the
state counts the completed ones, the budget bounds those that are started, and each of them asks for
one decision and at most one critique. No tool can keep a run from its end. -/
theorem run_accounts {goal : Goal} {budget : Budget} {s : Session σ}
    (hret : a.Returns s.clock.signal)
    (hrange : (a.firstState runId goal budget s).budget.maxTurns < 2 ^ 32) :
    ∃ report s' hs, (a.run runId goal budget policy).run s = (some report, s') ∧
      s'.trace = s.trace ++ hs ∧ a.Accounts runId policy goal budget s report hs := by
  obtain ⟨c⟩ := a.exists_chronicle runId policy goal budget s
  rw [c.firstState_eq] at hrange
  have hsignal : c.ended.clock.signal = s.clock.signal := c.does.signal.trans c.opens.signal
  obtain ⟨v, hv⟩ := c.breaks.verdict (hsignal ▸ hret)
  obtain ⟨hs, htrace, hdeeds, -⟩ := c.record.record
  obtain ⟨blocks, hblocks, haccounts⟩ := c.turnAccounts
  have hturns := c.course.turnIndex
  have hbegun := c.begun_length
  have hcompleted : (a.turns runId goal budget policy s).length ≤
      (a.begun runId goal budget policy s).length := by
    rw [c.begun, List.length_append, List.length_map]
    exact Nat.le_add_right _ _
  -- the cancellation and the store count for nothing, so that the record counts as the turns do
  have hcompletes : hs.countP Happening.completesTurn =
      (a.turns runId goal budget policy s).length := by
    rw [← countP_deeds rfl, hdeeds, c.countP_record rfl rfl, c.completed]
  have hstarts : hs.countP Happening.startsTurn = (a.begun runId goal budget policy s).length := by
    rw [← countP_deeds rfl, hdeeds, c.countP_record rfl rfl, hblocks,
      countP_flatten_eq_length haccounts fun _ _ h => h.started]
  refine ⟨⟨runId, v, c.final⟩, _, hs, by rw [c.runs, hv]; rfl, htrace, ?_⟩
  exact {
    passes := ⟨c.first, c.opened, c.ended, c.begins, hv ▸ c.course.passes rfl⟩
    total := rfl
    counted := by
      rw [c.firstState_eq, hcompletes]
      exact hturns
    bounded := by
      rw [c.firstState_eq]
      change c.final.turnIndex ≤ _
      omega
    started := by
      rw [c.firstState_eq, hstarts]
      exact hbegun
    turns := ⟨c.loaded, blocks, c.cleared, by rw [hdeeds, hblocks], c.loads, c.clears, haccounts⟩
    number := by
      intro b hb
      obtain ⟨k, hk⟩ := List.mem_iff_getElem?.1 hb
      obtain ⟨-, hlt, -⟩ := c.begun_spec k b hk
      omega }

/-- Every reply of a script but one comes to an end. -/
theorem play_returns {replies : List Reply} {fallback : Option String} {signal : Signal}
    (h : ∀ r ∈ replies, r ≠ .hang) : (Reply.play replies fallback).Returns signal := by
  intro n p c hc
  have hreply : ∀ r : Reply, r ≠ .hang → (r.exchange.answer.run none c).1 ≠ .stalled := by
    intro r hr
    cases r <;> simp_all [Reply.exchange, Activity.run]
  refine hreply _ ?_
  cases hn : replies[n]? with
  | some r => exact h r (List.mem_of_getElem? hn)
  | none => cases fallback <;> simp [Reply.exhausted]

theorem run_accounts_searcher : ∃ report s' hs,
    (searcher.run "run" .rehearsed .standard .standard).run .rehearsed = (some report, s') ∧
      s'.trace = Session.rehearsed.trace ++ hs ∧
      searcher.Accounts "run" .standard .rehearsed .standard .rehearsed report hs :=
  run_accounts ⟨play_returns (by simp [Reply.calls, Reply.stops]), nofun⟩ (by decide)

end Agent

end Conductor

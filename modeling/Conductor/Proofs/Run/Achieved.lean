import Conductor.Proofs.Critique.Reply
import Conductor.Proofs.Run.Boundary

/-!
# What a success rests on

A run is told as a success in two ways only: its last turn was a stop whose reason says so, or its
last turn was a call and the critic was satisfied with the result. In the second case the model of
the critic was asked about this result in that turn, and its reply says outright that the goal is
satisfied.

* `CompletedTurn.Hears` : in a turn the model of the critic was asked, and gave a reply;
* `CompletedTurn.Achieves` : a turn ends its run because the reply of the critic says so;
* `CompletedTurn.achieves_of_verdict` : **a call ends its run in no other way;**
* `Course.success` : a success is the verdict of the last turn;
* `Agent.success_affirmed` : **every success of a run rests on a reply that affirms it, or on the
  reason of a stop.**
-/

namespace Conductor

namespace Agent

open Outside

variable {σ : Type} {a : Agent σ} {runId : String} {policy : FailurePolicy} {s s' : Session σ}

/-! ### The critic -/

/-- A satisfied critique comes of a reply of the model that was asked. -/
theorem assess_satisfied {critic : Critic} {goal : Goal} {o : Observation} {c : Critique}
    (h : (a.assess critic goal o).run s = (.ok c, s')) (hc : c.goalSatisfied = true) :
    ∃ reply, (a.askCritic (critic.prompt goal o)).run s = (.returned (.ok reply), s') ∧
      c = Critique.ofReply reply := by
  unfold assess at h
  split at h
  · obtain ⟨e, s₁, hask, h⟩ := run_bind_eq.1 h
    cases e with
    | returned answer =>
      obtain ⟨rfl, rfl⟩ := run_ok_eq.1 h
      cases answer with
      | ok reply => exact ⟨reply, hask, rfl⟩
      | error e => cases hc
    | interrupted =>
      obtain ⟨rfl, -⟩ := run_ok_eq.1 h
      cases hc
    | panicked m => cases (run_pure_eq.1 h).1
    | expired => cases (run_pure_eq.1 h).1
    | stalled => cases (run_pure_eq.1 h).1
  · obtain ⟨rfl, -⟩ := run_ok_eq.1 h
    cases hc

theorem judge_satisfied {goal : Goal} {o : Observation} {c : Critique}
    (h : (a.judge goal o).run s = (.ok (some c), s')) (hc : c.goalSatisfied = true) :
    ∃ critic reply, a.critic = some critic ∧
      (a.askCritic (critic.prompt goal o)).run s = (.returned (.ok reply), s') ∧
      c = Critique.ofReply reply := by
  unfold judge at h
  split at h
  · cases (run_ok_eq.1 h).1
  · next critic hcritic =>
    obtain ⟨x, s₁, hassess, h⟩ := run_bind_eq.1 h
    obtain ⟨hx, rfl⟩ := run_pure_eq.1 h
    cases x with
    | error f => cases hx
    | ok c' =>
      obtain rfl := Option.some.inj (Except.ok.inj hx)
      obtain ⟨reply, hask, hreply⟩ := assess_satisfied hassess hc
      exact ⟨critic, reply, hcritic, hask, hreply⟩

/-- How a run ends after a critique: only if it is satisfied. -/
theorem verdictOf_eq_some {critique : Option Critique} {v : Verdict}
    (h : verdictOf critique = some v) : ∃ c, critique = some c ∧ c.goalSatisfied = true ∧
      v = ⟨.stopped, true, "Goal achieved: " ++ c.assessment⟩ := by
  unfold verdictOf at h
  split at h
  · next c =>
    split at h
    · next hc => exact ⟨c, rfl, hc, (Option.some.inj h).symm⟩
    · cases h
  · cases h

/-! ### Turns -/

/-- In the turn the model of the critic was asked with a prompt, and gave a reply. -/
def CompletedTurn.Hears (t : a.CompletedTurn runId policy) (p : Prompt) (reply : String) : Prop :=
  ∃ earlier later s₁ s₂, t.start.Does earlier s₁ ∧
    (a.askCritic p).run s₁ = (.returned (.ok reply), s₂) ∧ s₁.Does [.criticAsked p] s₂ ∧
    s₂.Does later t.after

/-- The turn ends its run because the reply of the critic about what was observed in it is a text of
a value that affirms, whatever stands under other names. -/
inductive CompletedTurn.Achieves (t : a.CompletedTurn runId policy) : Verdict → Prop
  | mk {critic : Critic} {o : Observation} {reply : String} {j : Json}
      (hcritic : a.critic = some critic) (hobserved : t.next.lastObservation = some o)
      (hheard : t.Hears (critic.prompt t.before.goal o) reply)
      (hreads : Json.Reads Critique.replyNames (Text.stripFence reply) j)
      (haffirms : Critique.Affirms j) :
      Achieves t ⟨.stopped, true, "Goal achieved: " ++ (Critique.ofReply reply).assessment⟩

/-- A call that ends its run was made, and then the model of the critic was asked about it. -/
theorem doCall_satisfied {state : RunState} {action : Action} {c : Call} {n : Nat}
    {out : TurnOutcome} {v : Verdict}
    (h : (a.doCall runId state action c n).run s = (.ok out, s')) (hv : out.verdict = some v) :
    ∃ critic o reply ds s₁, a.critic = some critic ∧ out.next.lastObservation = some o ∧
      s.Does ds s₁ ∧
      (a.askCritic (critic.prompt state.goal o)).run s₁ = (.returned (.ok reply), s') ∧
      (Critique.ofReply reply).goalSatisfied = true ∧
      v = ⟨.stopped, true, "Goal achieved: " ++ (Critique.ofReply reply).assessment⟩ := by
  obtain ⟨r, s₁, hr, h⟩ := run_bind_eq.1 h
  obtain ⟨_, s₂, he, h⟩ := run_bind_eq.1 h
  obtain ⟨critique, s₃, hj, h⟩ := run_bind_ok h fun _ => rfl
  obtain ⟨rfl, rfl⟩ := run_ok_eq.1 h
  obtain ⟨k, rfl, hk, rfl⟩ := verdictOf_eq_some hv
  obtain ⟨critic, reply, hcritic, hask, hreply⟩ := judge_satisfied hj hk
  obtain ⟨body, audit, -, -, hexecuted⟩ := a.call_does hr
  have hcalled := hexecuted.trans (emit_does he fun _ => rfl)
  rw [hreply] at hk
  exact ⟨critic, _, reply, _, s₂, hcritic, rfl, hcalled, hask, hk, by rw [hreply]⟩

/-- **A call ends its run only because the reply of the critic says so.** -/
theorem CompletedTurn.achieves_of_verdict (t : a.CompletedTurn runId policy)
    (hs : t.start.clock.cancelled = false) (hcall : t.action.IsCall) {v : Verdict}
    (hv : t.verdict = some v) : t.Achieves v := by
  obtain ⟨c, n, w, haction⟩ := hcall
  obtain ⟨s₁, s₂, ms, hopening, hact, hrest⟩ := t.acts hs
  rw [haction] at hact
  obtain ⟨_, s₃, hpause, hcall⟩ := run_bind_ok hact fun _ => rfl
  obtain ⟨critic, o, reply, ds, s₄, hcritic, hobserved, hcalled, hask, hsatisfied, rfl⟩ :=
    doCall_satisfied hcall hv
  obtain ⟨j, hreads, haffirms⟩ := Critique.satisfied_iff.1 hsatisfied
  have hearlier := (hopening.trans (pause_does hpause).1).trans hcalled
  rcases a.askCritic_does hask with ⟨-, hno⟩ | ⟨hasked, -, -⟩
  · cases hno
  · exact .mk hcritic hobserved ⟨_, _, s₄, s₂, hearlier, hask, hasked, hrest⟩ hreads haffirms

/-! ### Whole runs -/

/-- A success is the verdict of the last turn. -/
theorem Course.success {left : Nat} {state final : RunState} {v : Option Verdict}
    {turns : List (a.CompletedTurn runId policy)}
    (h : a.Course runId policy left state s turns v final s') {verdict : Verdict}
    (hv : v = some verdict) (hsuccess : verdict.success = true) :
    ∃ t ∈ turns, t.verdict = some verdict ∧ t.next = final := by
  induction h with
  | halted =>
    obtain rfl := Option.some.inj hv
    cases hsuccess
  | failed =>
    obtain ⟨reason, rfl⟩ := exists_reason_of_fault hv
    cases hsuccess
  | @ended left s t v halt ht => exact ⟨t, List.mem_singleton.2 rfl, ht.trans hv, rfl⟩
  | @goesOn left s s' t turns v final halt ht rest ih =>
    obtain ⟨u, hu, hlast⟩ := ih hv
    exact ⟨u, List.mem_cons_of_mem _ hu, hlast⟩

/-- A turn with a success is a call, or a stop for this reason. -/
theorem CompletedTurn.isCall_or_stop (t : a.CompletedTurn runId policy) {v : Verdict}
    (hv : t.verdict = some v) (hsuccess : v.success = true) :
    t.action.IsCall ∨ t.action = .stop v.reason := by
  have hy := t.yields
  generalize t.action = action at hy ⊢
  rw [verdict] at hv
  generalize t.outcome = out at hy hv
  cases hy with
  | called => exact .inl ⟨_, _, _, rfl⟩
  | asked =>
    obtain rfl := Option.some.inj hv
    cases hsuccess
  | stopped =>
    obtain rfl := Option.some.inj hv
    exact .inr rfl
  | replanned => cases hv

/-- **A critique is satisfied just by a value that affirms, and every success of a run rests on such
a reply, or on the reason of a stop.** -/
theorem success_affirmed (a : Agent σ) (runId : String) (goal : Goal) (budget : Budget)
    (policy : FailurePolicy) (s : Session σ) :
    (∀ reply, (Critique.ofReply reply).goalSatisfied = true ↔
      ∃ j, Json.Reads Critique.replyNames (Text.stripFence reply) j ∧ Critique.Affirms j) ∧
    (∀ t ∈ a.turns runId goal budget policy s, ∀ v, t.action.IsCall → t.verdict = some v →
      t.Achieves v) ∧
    ∀ report s', (a.run runId goal budget policy).run s = (some report, s') →
      report.verdict.success = true → ∃ t ∈ a.turns runId goal budget policy s,
        t.verdict = some report.verdict ∧ t.next = report.state ∧
          (t.Achieves report.verdict ∨ t.action = .stop report.verdict.reason) := by
  have hcalls (t : a.CompletedTurn runId policy) (ht : t ∈ a.turns runId goal budget policy s)
      (v : Verdict) (hcall : t.action.IsCall) (hv : t.verdict = some v) : t.Achieves v := by
    obtain ⟨c⟩ := a.exists_chronicle runId policy goal budget s
    exact t.achieves_of_verdict (c.started ht).2 hcall hv
  refine ⟨fun _ => Critique.satisfied_iff, hcalls, fun report s' hrun hsuccess => ?_⟩
  obtain ⟨first, s₁, told, final, s₂, -, hcourse, hran⟩ := a.run_course runId policy goal budget s
  obtain ⟨v, rfl, rfl⟩ := Option.map_eq_some_iff.1 (Prod.mk.inj (hran.symm.trans hrun)).1
  obtain ⟨t, ht, hv, hnext⟩ := hcourse.success rfl hsuccess
  refine ⟨t, ht, hv, hnext, ?_⟩
  exact (t.isCall_or_stop hv hsuccess).imp_left fun hcall => hcalls t ht v hcall hv

/-- Calls a tool, whose result satisfies the critic. -/
def content : Agent StateStore.Table :=
  { Agent.rehearsed [.rehearsed "search" [.output (.string "found")]] [.calls "search"] with
    critic := some (.plain "")
    criticModel := some (Reply.play [] (some "\x7b\"goal_satisfied\": true\x7d")) }

theorem success_affirmed_content : ∃ report s',
    (content.run "run" .rehearsed .standard .standard).run .rehearsed = (some report, s') ∧
    report.verdict.success = true ∧
    ∃ t ∈ content.turns "run" .rehearsed .standard .standard .rehearsed,
      t.next = report.state ∧ t.Achieves report.verdict := by
  have hs : (((content.run "run" .rehearsed .standard .standard).run .rehearsed).1.map
      (·.verdict.success)) = some true := by decide +kernel
  have hcalls : (content.turns "run" .rehearsed .standard .standard .rehearsed).all
      (·.action.kind == "call_tool") = true := by decide +kernel
  obtain ⟨report, s', hrun, hsuccess⟩ := exists_of_run_map hs
  obtain ⟨t, ht, -, hnext, hachieves | hstop⟩ :=
    (success_affirmed content "run" .rehearsed .standard .standard .rehearsed).2.2 report s' hrun
      hsuccess
  · exact ⟨report, s', hrun, hsuccess, t, ht, hnext, hachieves⟩
  · have hkind := List.all_eq_true.1 hcalls t ht
    rw [hstop] at hkind
    cases hkind

/-- An array satisfies the critic, with `true` as its second item. -/
theorem array_affirms : ¬ ∀ reply, (Critique.ofReply reply).goalSatisfied = true →
    ∃ o, Json.parse (Text.stripFence reply) = .ok o ∧ o.isObject = true ∧
      o.get? "goal_satisfied" = some (.bool true) := by
  intro h
  have hsatisfied : (Critique.ofReply "[\"done\", true, \"stop\"]").goalSatisfied = true := by
    decide +kernel
  obtain ⟨o, ho, hobject, -⟩ := h _ hsatisfied
  have harray : (Json.parse (Text.stripFence "[\"done\", true, \"stop\"]")).toOption.map
      Json.isObject = some false := by decide +kernel
  rw [ho] at harray
  cases hobject.symm.trans (Option.some.inj harray)

end Agent

end Conductor

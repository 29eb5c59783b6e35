import Conductor.Proofs.Run.Chronicle
import Conductor.Proofs.Run.Ending
import Mathlib.Data.List.Basic

/-!
# The events of a run

Whatever happens in a run, what its subscribers are told has one form: the turns follow one another
in the order of their numbers, each of them is announced, tells its call or its question if it has
one, and is told to be completed. Only a turn that fails breaks off on the way, and nothing follows
it.

* `Action.Tells`, `Blocks`, `BrokenOff` : the form of what is told;
* `Executor.NamesCalls` : a call is told under the name under which it was executed;
* `Inbox.foldl_take` : what a subscriber receives does not depend on the others;
* `Agent.run_events` : **every run tells events of this form.**
-/

namespace Conductor

/-! ### The form of what is told -/

/-- What an action tells of itself. -/
inductive Action.Tells (runId : String) : Action → List Event → Prop
  | call {c : Call} {n : Nat} {w : Duration} {summary : String} :
      Tells runId (.callTool c n w) [.toolCalled runId c.name summary]
  | ask {q : String} {fields : List String} :
      Tells runId (.askUser q fields) [.userInputRequested runId q fields]
  | stop {r : String} : Tells runId (.stop r) []
  | replan {gs : List String} : Tells runId (.replan gs) []

/-- What is told of completed turns with these actions. The first of them has the number after
`n`. -/
inductive Blocks (runId : String) : Nat → List Action → List Event → Prop
  | nil {n : Nat} : Blocks runId n [] []
  | cons {n ms : Nat} {action : Action} {actions : List Action} {told events : List Event}
      (htold : action.Tells runId told) (hrest : Blocks runId (n + 1) actions events) :
      Blocks runId n (action :: actions)
        (.turnStarted runId (n + 1) :: told ++
          .turnCompleted runId (n + 1) ms action.kind :: events)

/-- What is told of a turn that is not completed. -/
inductive BrokenOff (runId : String) (n : Nat) : List Event → Prop
  | announced : BrokenOff runId n [.turnStarted runId n]
  | called {tool summary : String} :
      BrokenOff runId n [.turnStarted runId n, .toolCalled runId tool summary]

theorem BrokenOff.asks_nothing {runId id q : String} {n : Nat} {fields : List String}
    {events : List Event} (h : BrokenOff runId n events) :
    Event.userInputRequested id q fields ∉ events := by
  cases h <;> simp

/-- **A question that is told is that of the last turn**, if no turn before it asks one. -/
theorem Blocks.of_question {runId id q : String} {n : Nat} {fields : List String}
    {actions : List Action} {events : List Event} (h : Blocks runId n actions events)
    (hwork : ∀ action ∈ actions.dropLast, action.isWork = true)
    (hq : Event.userInputRequested id q fields ∈ events) :
    id = runId ∧ actions.getLast? = some (.askUser q fields) ∧ ∃ before m ms, events = before ++
      [.turnStarted runId m, .userInputRequested runId q fields,
        .turnCompleted runId m ms "ask_user"] := by
  induction h with
  | nil => cases hq
  | @cons n ms action actions told events htold hrest ih =>
    have hcases : Event.userInputRequested id q fields ∈ told ∨
        Event.userInputRequested id q fields ∈ events := by simpa using hq
    rcases hcases with hhere | hlater
    · -- the turn asks, so that it is the last one
      cases htold with
      | call | stop | replan => simp at hhere
      | @ask q' fields' =>
        cases actions with
        | cons next actions =>
          have hwork' := hwork (.askUser q' fields') (by simp)
          cases hwork'
        | nil =>
          cases hrest
          simp only [List.mem_singleton, Event.userInputRequested.injEq] at hhere
          obtain ⟨rfl, rfl, rfl⟩ := hhere
          exact ⟨rfl, rfl, [], n + 1, ms, rfl⟩
    · cases actions with
      | nil =>
        cases hrest
        cases hlater
      | cons next actions =>
        obtain ⟨hid, hlast, before, m, ms', rfl⟩ :=
          ih (fun u hu => hwork u (by simp [hu])) hlater
        refine ⟨hid, by simpa using hlast, ?_⟩
        exact ⟨.turnStarted runId (n + 1) :: told ++
          .turnCompleted runId (n + 1) ms action.kind :: before, m, ms', by simp⟩

/-! ### Subscribers -/

namespace Inbox

/-- **A subscriber that receives what it is given receives all of it, in order.** -/
theorem foldl_take {i : Inbox} (h : i.subscriber.receives = true) (events : List Event) :
    events.foldl take i = { i with received := i.received ++ events } := by
  induction events generalizing i with
  | nil => simp
  | cons e events ih =>
    have htake : i.take e = { i with received := i.received ++ [e] } := if_pos h
    have hrest := @ih { i with received := i.received ++ [e] } h
    rw [List.foldl_cons, htake, hrest, List.append_assoc]
    rfl

end Inbox

/-- **What a subscriber is given does not depend on the others.** -/
theorem Bus.foldl_emit (events : List Event) (b : Bus) :
    events.foldl emit b = b.map fun i => events.foldl Inbox.take i := by
  induction events generalizing b with
  | nil => simp
  | cons e events ih =>
    rw [List.foldl_cons, ih, emit, List.map_map]
    rfl

/-! ### The names of calls -/

namespace Executor

variable (x : Executor)

/-- Whenever a call is told, the record of its execution stands right before it, and before that the
start of the body of its tool, if it was started. All are of the same name. -/
def NamesCalls (ds : List Happening) : Prop :=
  ∀ before id name summary after,
    ds = before ++ .emitted (.toolCalled id name summary) :: after →
      ∃ c body audit, c.name = name ∧ x.BodyDeeds c body ∧ audit.tool = name ∧
        body ++ [.audited audit] <:+ before

variable {x}

theorem namesCalls_of_notMem {ds : List Happening}
    (h : ∀ id name summary, .emitted (.toolCalled id name summary) ∉ ds) : x.NamesCalls ds := by
  rintro before id name summary after rfl
  exact absurd (by simp) (h id name summary)

theorem NamesCalls.append {ds ds' : List Happening} (h : x.NamesCalls ds)
    (h' : x.NamesCalls ds') : x.NamesCalls (ds ++ ds') := by
  intro before id name summary after heq
  rcases List.append_eq_append_iff.1 heq with ⟨mid, rfl, hmid⟩ | ⟨mid, rfl, hmid⟩
  · obtain ⟨c, body, audit, hname, hbody, haudit, hsuffix⟩ := h' _ _ _ _ _ hmid
    exact ⟨c, body, audit, hname, hbody, haudit, hsuffix.trans (List.suffix_append ..)⟩
  · cases mid with
    | nil =>
      -- the told call would be the first of the second record
      obtain ⟨c, body, audit, -, -, -, hsuffix⟩ := h' [] _ _ _ _ hmid.symm
      simp at hsuffix
    | cons y mid =>
      obtain ⟨rfl, -⟩ := List.cons.inj hmid
      exact h _ _ _ _ _ rfl

end Executor

namespace Agent

open Outside Session

variable {σ : Type} {a : Agent σ} {runId : String} {policy : FailurePolicy} {state : RunState}
  {ds : List Happening}

/-! ### One turn -/

/-- A call is told under the name under which it was executed. -/
theorem CallDeeds.namesCalls {c : Call} (h : a.CallDeeds runId c ds) :
    a.executor.NamesCalls ds := by
  obtain @⟨body, asked, audit, told, hbody, haudit, hasked⟩ := h
  intro before id name summary after heq
  have hfront : (.emitted (.toolCalled id name summary) : Happening) ∉
      body ++ [.audited audit] := by
    cases hbody <;> simp
  have hback : (.emitted (.toolCalled id name summary) : Happening) ∉ asked := by
    rcases hasked with rfl | ⟨p, rfl⟩ <;> simp
  rw [show body ++ .audited audit :: .emitted (.toolCalled runId c.name told) :: asked =
    (body ++ [.audited audit]) ++ .emitted (.toolCalled runId c.name told) :: asked by simp,
    List.append_cons_inj_of_notMem hfront hback] at heq
  obtain ⟨rfl, hcall, -⟩ := heq
  simp only [Happening.emitted.injEq, Event.toolCalled.injEq] at hcall
  obtain ⟨-, rfl, -⟩ := hcall
  exact ⟨c, body, audit, rfl, hbody, haudit, List.suffix_rfl⟩

theorem opening_namesCalls : a.executor.NamesCalls (a.opening runId state) :=
  Executor.namesCalls_of_notMem (by simp [opening])

theorem CallDeeds.events {c : Call} (h : a.CallDeeds runId c ds) :
    ∃ summary, ds.filterMap Happening.event? = [.toolCalled runId c.name summary] := by
  obtain @⟨body, asked, audit, summary, hbody, haudit, hasked⟩ := h
  refine ⟨summary, ?_⟩
  rcases hasked with rfl | ⟨p, rfl⟩ <;> cases hbody <;> rfl

theorem ActionDeeds.events {action : Action} (h : a.ActionDeeds runId action ds) :
    action.Tells runId (ds.filterMap Happening.event?) ∧ a.executor.NamesCalls ds := by
  cases h with
  | call h =>
    obtain ⟨summary, hevents⟩ := h.events
    exact ⟨hevents ▸ .call, h.namesCalls⟩
  | ask => exact ⟨.ask, Executor.namesCalls_of_notMem (by simp)⟩
  | stop => exact ⟨.stop, Executor.namesCalls_of_notMem (by simp)⟩
  | replan => exact ⟨.replan, Executor.namesCalls_of_notMem (by simp)⟩

/-- **A completed turn is announced, tells its action, and is told to be completed.** -/
theorem CompletedTurn.Did.events {t : a.CompletedTurn runId policy} (h : t.Did ds) :
    a.executor.NamesCalls ds ∧ ∃ told ms, t.action.Tells runId told ∧
      ds.filterMap Happening.event? = .turnStarted runId (t.before.turnIndex + 1) :: told ++
        [.turnCompleted runId (t.before.turnIndex + 1) ms t.action.kind] := by
  obtain @⟨acted, saved, ms, hacted, hsaved⟩ := h
  obtain ⟨htells, hnames⟩ := hacted.events
  have hquiet : saved.filterMap Happening.event? = [] := by
    rcases hsaved with rfl | ⟨next, rfl⟩ <;> rfl
  refine ⟨?_, _, ms, htells, ?_⟩
  · refine (opening_namesCalls.append hnames).append (Executor.namesCalls_of_notMem ?_)
    rcases hsaved with rfl | ⟨next, rfl⟩ <;> simp
  · rw [List.filterMap_append, List.filterMap_append, List.filterMap_cons, hquiet]
    rfl

/-- **A turn that fails is announced, and tells its call if it was made.** -/
theorem FaultDeeds.events {f : TurnFault} {s : Session σ}
    (h : a.FaultDeeds runId s policy state f ds) :
    a.executor.NamesCalls ds ∧
      BrokenOff runId (state.turnIndex + 1) (ds.filterMap Happening.event?) := by
  cases h with
  | unasked => exact ⟨Executor.namesCalls_of_notMem (by simp), .announced⟩
  | undone => exact ⟨opening_namesCalls, .announced⟩
  | unjudged hd ha hds =>
    obtain ⟨summary, hevents⟩ := hds.events
    refine ⟨opening_namesCalls.append hds.namesCalls, ?_⟩
    rw [List.filterMap_append, hevents]
    exact .called

/-! ### Whole runs -/

/-- **Turns that follow one another tell one block each.** -/
theorem blocks_of_did {turns : List (a.CompletedTurn runId policy)}
    {blocks : List (List Happening)} (h : List.Forall₂ CompletedTurn.Did turns blocks) (n : Nat)
    (hindex : ∀ k t, turns[k]? = some t → t.before.turnIndex = n + k) :
    Blocks runId n (turns.map CompletedTurn.action)
      (blocks.flatten.filterMap Happening.event?) := by
  induction h generalizing n with
  | nil => exact .nil
  | @cons t ds turns blocks hdid hrest ih =>
    obtain ⟨-, told, ms, htells, hevents⟩ := hdid.events
    have hn : t.before.turnIndex = n := hindex 0 t rfl
    have hlater := ih (n + 1) fun k u hu => by
      rw [hindex (k + 1) u (by simpa using hu)]
      omega
    have hblock := @Blocks.cons runId n ms _ _ _ _ htells hlater
    rw [List.map_cons, List.flatten_cons, List.filterMap_append, hevents, hn]
    simpa using hblock

/-- Turns tell each of their calls under the name under which it was executed. -/
theorem namesCalls_of_did {turns : List (a.CompletedTurn runId policy)}
    {blocks : List (List Happening)} (h : List.Forall₂ CompletedTurn.Did turns blocks) :
    a.executor.NamesCalls blocks.flatten := by
  induction h with
  | nil => exact Executor.namesCalls_of_notMem (by simp)
  | cons hdid _ ih =>
    rw [List.flatten_cons]
    exact hdid.events.1.append ih

/-- What is left of a turn that failed tells what a turn tells that breaks off. -/
theorem Remnant.events {final : RunState} {s' : Session σ} {v : Option Verdict}
    {failed : List (RunState × Session σ)} {rest : List Happening}
    (h : a.Remnant runId policy final s' v failed rest) :
    a.executor.NamesCalls rest ∧
      ((failed = [] ∧ rest = []) ∨ ∃ s f, failed = [(final, s)] ∧ v = verdictOfFault f ∧
        ((a.step runId policy final).run s).1 = .error f ∧
        BrokenOff runId (final.turnIndex + 1) (rest.filterMap Happening.event?)) := by
  cases h with
  | whole => exact ⟨Executor.namesCalls_of_notMem (by simp), .inl ⟨rfl, rfl⟩⟩
  | @broken f s _ hstep hshows hopen hindex hds =>
    obtain ⟨hnames, hbroken⟩ := hds.events
    exact ⟨hnames, .inr ⟨s, f, rfl, rfl, by rw [hstep], hbroken⟩⟩

/-- Only the last turn can be a question or a stop. -/
theorem Course.isWork_of_mem_dropLast {left : Nat} {first final : RunState} {s s' : Session σ}
    {v : Option Verdict} {turns : List (a.CompletedTurn runId policy)}
    (h : a.Course runId policy left first s turns v final s') :
    ∀ action ∈ (turns.map CompletedTurn.action).dropLast, action.isWork = true := by
  intro action haction
  rw [← List.map_dropLast] at haction
  obtain ⟨t, ht, rfl⟩ := List.mem_map.1 haction
  exact (t.verdict_eq_none_iff.1 (h.verdict_of_mem_dropLast t ht)).1

namespace Chronicle

variable {goal : Goal} {budget : Budget} {s : Session σ}
  (c : a.Chronicle runId goal budget policy s)

/-- What the store is asked for is no event. -/
theorem filterMap_record :
    (c.loaded ++ (c.blocks.flatten ++ c.rest) ++ c.cleared).filterMap Happening.event? =
      c.blocks.flatten.filterMap Happening.event? ++ c.rest.filterMap Happening.event? := by
  have hloaded : c.loaded.filterMap Happening.event? = [] := by
    rcases c.loads with h | h <;> rw [h] <;> rfl
  have hcleared : c.cleared.filterMap Happening.event? = [] := by
    rcases c.clears with h | h <;> rw [h] <;> rfl
  rw [List.filterMap_append, List.filterMap_append, hloaded, hcleared, List.nil_append,
    List.append_nil, List.filterMap_append]

/-- In the whole record a call is told under the name under which it was executed. -/
theorem namesCalls :
    a.executor.NamesCalls (c.loaded ++ (c.blocks.flatten ++ c.rest) ++ c.cleared) := by
  have hloaded : a.executor.NamesCalls c.loaded := by
    refine Executor.namesCalls_of_notMem ?_
    rcases c.loads with h | h <;> simp [h]
  have hcleared : a.executor.NamesCalls c.cleared := by
    refine Executor.namesCalls_of_notMem ?_
    rcases c.clears with h | h <;> simp [h]
  exact (hloaded.append ((namesCalls_of_did c.did).append c.breaks.events.1)).append hcleared

/-- A run that ends with a question begins no further turn, and tells its state. -/
theorem ends_with_question {q : String} {fields : List String}
    (h : ((a.turns runId goal budget policy s).map CompletedTurn.action).getLast? =
      some (.askUser q fields)) :
    c.rest = [] ∧ ∃ report, c.verdict.map (⟨runId, ·, c.final⟩ : Verdict → Report) = some report ∧
      report.state.lastAction = some (.askUser q fields) := by
  rw [List.getLast?_map] at h
  obtain ⟨t, ht, haction⟩ := Option.map_eq_some_iff.1 h
  have hmem := List.mem_of_getLast? ht
  have hverdict : t.verdict ≠ none := by
    intro hv
    have hwork := (t.verdict_eq_none_iff.1 hv).1
    rw [haction] at hwork
    cases hwork
  obtain ⟨hv, hfinal, -⟩ := c.course.eq_of_verdict hmem hverdict
  obtain ⟨v, hsome⟩ := Option.ne_none_iff_exists'.1 hverdict
  refine ⟨?_, ⟨runId, v, c.final⟩, by rw [hv, hsome]; rfl, ?_⟩
  · rcases c.breaks.events.2 with ⟨-, hnone⟩ | ⟨s₁, f, hfailed, -⟩
    · exact hnone
    · exact absurd (c.open_of_failed (by simp [hfailed]) t hmem) hverdict
  · change c.final.lastAction = _
    rw [hfinal, t.next_lastAction, haction]

end Chronicle

/-- **The form of the events of a run**, however it ends. They are the blocks of its completed turns
and then at most what is told of one that has failed. A question is told in the last block only, and
then it is that of the last action. A call is told under the name under which it was executed. And
every subscriber is given exactly these events, in order, whatever the others do with them. -/
theorem run_events (goal : Goal) (budget : Budget) (s : Session σ) :
    ∃ told s' hs blocks rest, (a.run runId goal budget policy).run s = (told, s') ∧
      s'.trace = s.trace ++ hs ∧ hs.filterMap Happening.event? = blocks ++ rest ∧
      Blocks runId (a.firstState runId goal budget s).turnIndex
        ((a.turns runId goal budget policy s).map CompletedTurn.action) blocks ∧
      (rest = [] ∨ ∃ b f, (a.begun runId goal budget policy s).getLast? = some b ∧
        ((a.step runId policy b.1).run b.2).1 = .error f ∧
        told.map Report.verdict = verdictOfFault f ∧
        BrokenOff runId ((a.firstState runId goal budget s).turnIndex +
          (a.turns runId goal budget policy s).length + 1) rest) ∧
      (∀ id q fields, Event.userInputRequested id q fields ∈ blocks ++ rest →
        id = runId ∧ rest = [] ∧
        (∃ before n ms, blocks = before ++ [.turnStarted runId n,
          .userInputRequested runId q fields, .turnCompleted runId n ms "ask_user"]) ∧
        ∃ report, told = some report ∧ report.state.lastAction = some (.askUser q fields)) ∧
      a.executor.NamesCalls (deeds hs) ∧
      s'.bus = s.bus.map (fun i => (blocks ++ rest).foldl Inbox.take i) ∧
      ∀ i : Inbox, i.subscriber.receives = true →
        ((blocks ++ rest).foldl Inbox.take i).received = i.received ++ (blocks ++ rest) := by
  obtain ⟨c⟩ := a.exists_chronicle runId policy goal budget s
  obtain ⟨hs, htrace, hdeeds, -⟩ := c.record.record
  obtain ⟨-, hrest⟩ := c.breaks.events
  have hblocks := blocks_of_did c.did c.first.turnIndex fun _ _ ht => c.before_turnIndex ht
  have hindex := c.course.turnIndex
  refine ⟨_, _, hs, _, c.rest.filterMap Happening.event?, c.runs, htrace, ?_,
    c.firstState_eq ▸ hblocks, ?_, ?_, ?_, ?_, ?_⟩
  · rw [← filterMap_event?_deeds, hdeeds, c.filterMap_record]
  · rw [c.firstState_eq, ← hindex]
    rcases hrest with ⟨-, hnone⟩ | ⟨s₁, f, hfailed, hv, hstep, hbroken⟩
    · exact .inl (by rw [hnone]; rfl)
    · refine .inr ⟨(c.final, s₁), f, ?_, hstep, ?_, hbroken⟩
      · rw [c.begun, hfailed, List.getLast?_append]
        rfl
      · rw [hv]
        cases verdictOfFault f <;> rfl
  · intro id q fields hq
    -- a turn that breaks off asks nothing, so that the question stands in a block
    have hmem : Event.userInputRequested id q fields ∈
        c.blocks.flatten.filterMap Happening.event? := by
      rcases List.mem_append.1 hq with hq | hq
      · exact hq
      · rcases hrest with ⟨-, hnone⟩ | ⟨s₁, f, -, -, -, hbroken⟩
        · rw [hnone] at hq
          cases hq
        · exact absurd hq hbroken.asks_nothing
    obtain ⟨hid, hlast, hbefore⟩ := hblocks.of_question c.course.isWork_of_mem_dropLast hmem
    obtain ⟨hend, report, hreport, hstate⟩ := c.ends_with_question hlast
    exact ⟨hid, by rw [hend]; rfl, hbefore, report, hreport, hstate⟩
  · rw [hdeeds]
    exact c.namesCalls
  · rw [c.record.bus, Bus.foldl_emit, c.filterMap_record]
  · intro i hi
    rw [Inbox.foldl_take hi]

end Agent

end Conductor

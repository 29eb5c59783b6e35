import Conductor.Proofs.Timestamp
import Conductor.State

/-!
# States and decisions that are read back

For every type of which a state is made: what its codec writes has the format of the codec and
stands for the same value again. `Storable` says of each type what its fields must satisfy, that is
how many bits they have, and that the JSON values in them can be kept; whatever can be kept is
`stored`.

* `Duration.stored`, `Call.stored`, `Result.stored`, `Observation.stored`, `Critique.stored`,
  `Decision.stored`, `Action.stored`, `Goal.stored`, `Budget.stored`, `Digest.stored`,
  `RunState.stored` : each type is kept by its codec;
* `RunState.Kept`, `Decision.Kept` : the states and the decisions that can be kept;
* `printed_reads_back` : **every state and every decision is read back from its JSON.**
-/

namespace Conductor

open Json

/-! ### Durations -/

/-- The duration fits the type in which it is kept: its seconds have at most 64 bits. -/
def Duration.Storable (d : Duration) : Prop := d.wholeSeconds < 2 ^ 64

instance (d : Duration) : Decidable d.Storable :=
  inferInstanceAs (Decidable (d.wholeSeconds < 2 ^ 64))

namespace Duration

variable {d : Duration}

theorem subsecond_lt (d : Duration) : d.subsecond < 1000000000 := Nat.mod_lt _ (by decide)

/-- No nanoseconds are carried to the seconds, as there are less than a second of them. -/
theorem carry_encode (h : d.Storable) : carry (codec.encode d) = .ok (codec.encode d) := by
  have hs : (codec.encode d).part? "secs" nat? = some d.wholeSeconds := nat?_nat _
  have hn : (codec.encode d).part? "nanos" nat? = some d.subsecond := nat?_nat _
  have hz : d.subsecond / perSecond = 0 := Nat.div_eq_of_lt d.subsecond_lt
  have hm : d.subsecond % perSecond = d.subsecond := Nat.mod_eq_of_lt d.subsecond_lt
  rw [carry, hs, hn]
  simp only [hz, hm, Nat.add_zero]
  exact if_pos h

theorem stored (h : d.Storable) : codec.Stores d where
  accepts := .record (by decide)
    (.cons (.u64 h) (.cons (.u32 (Nat.lt_trans d.subsecond_lt (by decide))) .nil)) (carry_encode h)
  decode := by
    have hs : (codec.encode d).part? "secs" nat? = some d.wholeSeconds := nat?_nat _
    have hn : (codec.encode d).part? "nanos" nat? = some d.subsecond := nat?_nat _
    have hd : (⟨d.wholeSeconds * perSecond + d.subsecond⟩ : Duration) = d :=
      congrArg Duration.mk (Nat.div_add_mod' d.nanos perSecond)
    simp only [codec] at hs hn ⊢
    simp only [hs, hn, bind, Option.bind, pure, hd]
  exact := ⟨exact_nat h, exact_nat (Nat.lt_trans d.subsecond_lt (by decide)), trivial⟩

end Duration

/-! ### Calls, codes and results -/

/-- The arguments are a value as it is kept. -/
structure Call.Storable (c : Call) : Prop where
  args : c.args.Storable

namespace Call

variable {c : Call}

theorem fill (h : c.Storable) : FillAll fields c.members :=
  .cons (.string c.name) (.cons (.any h.args.ordered) .nil)

theorem stored (h : c.Storable) : codec.Stores c where
  accepts := .record (by decide) (fill h) rfl
  decode := rfl
  exact := ⟨trivial, h.args.exact, trivial⟩

end Call

namespace ErrorCode

theorem mem_all (c : ErrorCode) : c ∈ all := by cases c <;> decide

theorem ofName?_name (c : ErrorCode) : ofName? c.name = some c := by cases c <;> rfl

theorem stored (c : ErrorCode) : codec.Stores c where
  accepts := .choice (List.mem_map_of_mem c.mem_all)
  decode := c.ofName?_name
  exact := trivial

end ErrorCode

/-- The parts of a result fit the types in which they are kept. -/
structure Result.Storable (r : Result) : Prop where
  call : r.call.Storable
  data : r.data.Storable
  attempt : r.attempt < 2 ^ 32
  latency : r.latency.Storable
  retryAfter : ∀ d ∈ r.retryAfter, d.Storable

namespace Result

variable {r : Result}

theorem stored (h : r.Storable) : codec.Stores r where
  accepts := .record (by decide)
    (.cons (Call.stored h.call).accepts <| .cons (.bool r.ok) <| .cons (.any h.data.ordered) <|
      .cons r.code.stored.accepts <| .option (fun s _ => .string s) <|
      .cons (.bool r.schemaValidated) <| .cons (.u32 h.attempt) <|
      .cons (Duration.stored h.latency).accepts <| .cons (.strings r.missingFields) <|
      .option (fun d hd => (Duration.stored (h.retryAfter d hd)).accepts) <|
      .cons (.bool r.repaired) .nil) rfl
  decode := by
    have hdetail : optional text? (.ofOption .string r.detail) = some r.detail :=
      optional_ofOption fun s _ => ⟨nofun, rfl⟩
    have hretry : optional Duration.codec.decode? (.ofOption Duration.codec.encode r.retryAfter) =
        some r.retryAfter :=
      optional_ofOption fun d hd => ⟨nofun, (Duration.stored (h.retryAfter d hd)).decode⟩
    simp only [codec, part?, get?, List.lookup_cons, String.reduceBEq, Option.bind_eq_bind,
      Option.bind_some, Option.pure_def, bool?, nat?_nat, texts?_strings, hdetail, hretry,
      (Call.stored h.call).decode, r.code.stored.decode, (Duration.stored h.latency).decode]
  exact := ⟨(Call.stored h.call).exact, trivial, h.data.exact, trivial,
    exact_ofOption fun _ _ => trivial, trivial, exact_nat (Nat.lt_trans h.attempt (by decide)),
    (Duration.stored h.latency).exact, exact_strings _,
    exact_ofOption fun d hd => (Duration.stored (h.retryAfter d hd)).exact, trivial, trivial⟩

end Result

/-! ### Observations and critiques -/

namespace Observation

variable {o : Observation}

theorem facts?_factsJson (t : Keyed String) : facts? (factsJson t) = some t :=
  ofList_mapM text? .string fun _ _ => rfl

theorem stored (h : o.result.Storable) : codec.Stores o where
  accepts := .record (by decide)
    (.cons (.string o.tool) <| .cons (.string o.summary) <|
      .cons (.entries .string fun _ _ => .string _) <|
      .cons (.strings o.affordances) <| .cons (Result.stored h).accepts .nil) rfl
  decode := by
    simp only [codec, part?, get?, List.lookup_cons, String.reduceBEq, Option.bind_eq_bind,
      Option.bind_some, Option.pure_def, text?, texts?_strings, facts?_factsJson,
      (Result.stored h).decode]
  exact := ⟨trivial, trivial, exactMembers_map .string fun _ _ => trivial,
    exact_strings _, (Result.stored h).exact, trivial⟩

end Observation

namespace Recommendation

theorem mem_all (r : Recommendation) : r ∈ all := by cases r <;> decide

theorem ofName?_name (r : Recommendation) : ofName? r.name = some r := by cases r <;> rfl

end Recommendation

theorem Critique.stored (c : Critique) : Critique.codec.Stores c where
  accepts := .record (by decide)
    (.cons (.string c.assessment) <| .cons (.bool c.goalSatisfied) <|
      .cons (.choice (List.mem_map_of_mem c.recommendation.mem_all)) .nil) rfl
  decode := by
    simp only [codec, part?, get?, List.lookup_cons, String.reduceBEq, Option.bind_eq_bind,
      Option.bind_some, Option.pure_def, text?, bool?, Recommendation.ofName?_name]
  exact := ⟨trivial, trivial, trivial, trivial⟩

/-! ### Decisions and actions -/

/-- The call of a decision can be kept. -/
def Decision.Storable : Decision → Prop
  | .callTool call => call.Storable
  | _ => True

theorem fill_askUser (question : String) (missing : List String) :
    FillAll askUserFields [("question", .string question), ("missing_fields", .strings missing)] :=
  .cons (.string question) (.cons (.strings missing) .nil)

theorem fill_stop (reason : String) : FillAll stopFields [("reason", .string reason)] :=
  .cons (.string reason) .nil

theorem fill_replan (subgoals : List String) :
    FillAll replanFields [("subgoals", .strings subgoals)] :=
  .cons (.strings subgoals) .nil

theorem Decision.stored {d : Decision} (h : d.Storable) : Decision.codec.Stores d where
  accepts := by
    cases d with
    | callTool call => exact .tagged rfl (by decide) (by decide) (Call.fill h)
    | askUser question missing =>
      exact .tagged rfl (by decide) (by decide) (fill_askUser question missing)
    | stop reason => exact .tagged rfl (by decide) (by decide) (fill_stop reason)
    | replan subgoals => exact .tagged rfl (by decide) (by decide) (fill_replan subgoals)
  decode := by
    cases d with
    | callTool call => rfl
    | askUser question missing =>
      simp only [codec, tagged, kind, part?, get?, List.lookup_cons, String.reduceBEq,
        Option.bind_eq_bind, Option.bind_some, Option.pure_def, text?, texts?_strings]
    | stop reason => rfl
    | replan subgoals =>
      simp only [codec, tagged, kind, part?, get?, List.lookup_cons, String.reduceBEq,
        Option.bind_eq_bind, Option.bind_some, Option.pure_def, text?, texts?_strings]
  exact := by
    cases d with
    | callTool call => exact ⟨trivial, trivial, h.args.exact, trivial⟩
    | askUser question missing => exact ⟨trivial, trivial, exact_strings missing, trivial⟩
    | stop reason => exact ⟨trivial, trivial, trivial⟩
    | replan subgoals => exact ⟨trivial, exact_strings subgoals, trivial⟩

/-- The parts of an action fit the types in which they are kept. -/
def Action.Storable : Action → Prop
  | .callTool call attempt wait => call.Storable ∧ attempt < 2 ^ 32 ∧ wait.Storable
  | _ => True

theorem Action.stored {a : Action} (h : a.Storable) : Action.codec.Stores a where
  accepts := by
    cases a with
    | callTool call attempt wait =>
      obtain ⟨hcall, hattempt, hwait⟩ := h
      exact .tagged rfl (by decide) (by decide) (.cons (Call.stored hcall).accepts <|
        .cons (.u32 hattempt) <| .cons (Duration.stored hwait).accepts .nil)
    | askUser question missing =>
      exact .tagged rfl (by decide) (by decide) (fill_askUser question missing)
    | stop reason => exact .tagged rfl (by decide) (by decide) (fill_stop reason)
    | replan subgoals => exact .tagged rfl (by decide) (by decide) (fill_replan subgoals)
  decode := by
    cases a with
    | callTool call attempt wait =>
      obtain ⟨hcall, -, hwait⟩ := h
      simp only [codec, tagged, kind, part?, get?, List.lookup_cons, String.reduceBEq,
        Option.bind_eq_bind, Option.bind_some, Option.pure_def, text?, nat?_nat,
        (Call.stored hcall).decode, (Duration.stored hwait).decode]
    | askUser question missing =>
      simp only [codec, tagged, kind, part?, get?, List.lookup_cons, String.reduceBEq,
        Option.bind_eq_bind, Option.bind_some, Option.pure_def, text?, texts?_strings]
    | stop reason => rfl
    | replan subgoals =>
      simp only [codec, tagged, kind, part?, get?, List.lookup_cons, String.reduceBEq,
        Option.bind_eq_bind, Option.bind_some, Option.pure_def, text?, texts?_strings]
  exact := by
    cases a with
    | callTool call attempt wait =>
      obtain ⟨hcall, hattempt, hwait⟩ := h
      exact ⟨trivial, (Call.stored hcall).exact, exact_nat (Nat.lt_trans hattempt (by decide)),
        (Duration.stored hwait).exact, trivial⟩
    | askUser question missing => exact ⟨trivial, trivial, exact_strings missing, trivial⟩
    | stop reason => exact ⟨trivial, trivial, trivial⟩
    | replan subgoals => exact ⟨trivial, exact_strings subgoals, trivial⟩

/-! ### Goals, budgets and digests -/

/-- The goal was set in a year of four digits. -/
def Goal.Storable (g : Goal) : Prop := 0 ≤ g.createdAt.date.year ∧ g.createdAt.date.year ≤ 9999

instance (g : Goal) : Decidable g.Storable := inferInstanceAs (Decidable (_ ∧ _))

theorem Goal.stored {g : Goal} (h : g.Storable) : Goal.codec.Stores g where
  accepts := .record (by decide)
    (.cons (.string g.text) <| .cons (.strings g.constraints) <|
      .cons (Timestamp.codec_keeps g.createdAt h.1 h.2).accepts .nil) rfl
  decode := by
    simp only [codec, part?, get?, List.lookup_cons, String.reduceBEq, Option.bind_eq_bind,
      Option.bind_some, Option.pure_def, text?, texts?_strings,
      (Timestamp.codec_keeps g.createdAt h.1 h.2).decode]
  exact := ⟨trivial, exact_strings _, trivial, trivial⟩

/-- The parts of a budget fit the types in which they are kept. -/
structure Budget.Storable (b : Budget) : Prop where
  maxTurns : b.maxTurns < 2 ^ 32
  maxDuration : b.maxDuration.Storable

theorem Budget.stored {b : Budget} (h : b.Storable) : Budget.codec.Stores b where
  accepts := .record (by decide)
    (.cons (.u32 h.maxTurns) <| .cons (Duration.stored h.maxDuration).accepts .nil) rfl
  decode := by
    simp only [codec, part?, get?, List.lookup_cons, String.reduceBEq, Option.bind_eq_bind,
      Option.bind_some, Option.pure_def, nat?_nat, (Duration.stored h.maxDuration).decode]
  exact := ⟨exact_nat (Nat.lt_trans h.maxTurns (by decide)), (Duration.stored h.maxDuration).exact,
    trivial⟩

namespace Digest

/-- The numbers of an entry fit the types in which they are kept. -/
structure Entry.Storable (e : Entry) : Prop where
  turn : e.turn < 2 ^ 32
  updates : e.updates < 2 ^ 32

theorem Entry.stored {e : Entry} (h : e.Storable) : Entry.codec.Stores e where
  accepts := .record (by decide)
    (.cons (.string e.value) <| .cons (.u32 h.turn) <| .cons (.u32 h.updates) .nil) rfl
  decode := by
    simp only [Entry.codec, part?, Json.get?, List.lookup_cons, String.reduceBEq,
      Option.bind_eq_bind, Option.bind_some, Option.pure_def, text?, nat?_nat]
  exact := ⟨trivial, exact_nat (Nat.lt_trans h.turn (by decide)),
    exact_nat (Nat.lt_trans h.updates (by decide)), trivial⟩

/-- The numbers of a digest fit the types in which they are kept. -/
structure Storable (d : Digest) : Prop where
  entries : ∀ p ∈ d.entries.entries, p.2.Storable
  elided : d.elided < 2 ^ 64

variable {d : Digest}

theorem stored (h : d.Storable) : codec.Stores d where
  accepts := .record (by decide)
    (.cons (.entries _ fun p hp => (Entry.stored (h.entries p hp)).accepts) <|
      .cons (.strings d.decisionLog) <| .cons (.count h.elided) .nil) rfl
  decode := by
    have hentries : entries? (.object (d.entries.entries.map fun p =>
        (p.1, Entry.codec.encode p.2))) = some d.entries :=
      ofList_mapM _ _ fun p hp => (Entry.stored (h.entries p hp)).decode
    simp only [codec, part?, Json.get?, List.lookup_cons, String.reduceBEq, Option.bind_eq_bind,
      Option.bind_some, Option.pure_def, texts?_strings, nat?_nat, hentries]
  exact := ⟨exactMembers_map _ fun p hp => (Entry.stored (h.entries p hp)).exact, exact_strings _,
    exact_nat h.elided, trivial⟩

end Digest

/-! ### States -/

/-- The state can be kept: its numbers fit the types in which they are kept, its goal was set in a
year of four digits, and the JSON values in it are objects as they are kept, of numbers that are
read back from their numerals. -/
structure RunState.Storable (s : RunState) : Prop where
  goal : s.goal.Storable
  lastAction : ∀ a ∈ s.lastAction, a.Storable
  lastObservation : ∀ o ∈ s.lastObservation, o.result.Storable
  budget : s.budget.Storable
  turnIndex : s.turnIndex < 2 ^ 32
  digest : s.digest.Storable

namespace RunState

variable {s : RunState}

theorem stored (h : s.Storable) : codec.Stores s where
  accepts := .record (by decide)
    (.cons (Goal.stored h.goal).accepts <| .cons (.strings s.subgoals) <|
      .option (fun a ha => (Action.stored (h.lastAction a ha)).accepts) <|
      .option (fun o ho => (Observation.stored (h.lastObservation o ho)).accepts) <|
      .option (fun c _ => c.stored.accepts) <| .cons (Budget.stored h.budget).accepts <|
      .cons (.u32 h.turnIndex) <| .cons (Digest.stored h.digest).accepts .nil) rfl
  decode := by
    have haction : optional Action.codec.decode? (.ofOption Action.codec.encode s.lastAction) =
        some s.lastAction :=
      optional_ofOption fun a ha => ⟨nofun, (Action.stored (h.lastAction a ha)).decode⟩
    have hobservation : optional Observation.codec.decode?
        (.ofOption Observation.codec.encode s.lastObservation) = some s.lastObservation :=
      optional_ofOption fun o ho => ⟨nofun, (Observation.stored (h.lastObservation o ho)).decode⟩
    have hcritique : optional Critique.codec.decode?
        (.ofOption Critique.codec.encode s.lastCritique) = some s.lastCritique :=
      optional_ofOption fun c _ => ⟨nofun, c.stored.decode⟩
    simp only [codec, part?, get?, List.lookup_cons, String.reduceBEq, Option.bind_eq_bind,
      Option.bind_some, Option.pure_def, texts?_strings, nat?_nat, haction, hobservation, hcritique,
      (Goal.stored h.goal).decode, (Budget.stored h.budget).decode, (Digest.stored h.digest).decode]
  exact := ⟨(Goal.stored h.goal).exact, exact_strings _,
    exact_ofOption fun a ha => (Action.stored (h.lastAction a ha)).exact,
    exact_ofOption fun o ho => (Observation.stored (h.lastObservation o ho)).exact,
    exact_ofOption fun c _ => c.stored.exact, (Budget.stored h.budget).exact,
    exact_nat (Nat.lt_trans h.turnIndex (by decide)), (Digest.stored h.digest).exact, trivial⟩

end RunState

/-! ### What is printed is read -/

/-- The states that can be kept. -/
abbrev RunState.Kept := { s : RunState // s.Storable }

/-- The decisions that can be kept. -/
abbrev Decision.Kept := { d : Decision // d.Storable }

/-- **Every state and every decision is read back from its JSON**, in either layout, if no more
than 127 brackets are open at once. -/
theorem printed_reads_back :
    (∀ s : RunState.Kept, (RunState.codec.encode s).depth ≤ 127 →
      RunState.codec.ofText (RunState.codec.encode s).pretty = .ok s.val ∧
        RunState.codec.ofText (RunState.codec.encode s).compact = .ok s.val) ∧
    (∀ d : Decision.Kept, (Decision.codec.encode d).depth ≤ 127 →
      Decision.codec.ofText (Decision.codec.encode d).pretty = .ok d.val ∧
        Decision.codec.ofText (Decision.codec.encode d).compact = .ok d.val) :=
  ⟨fun s => (RunState.stored s.property).reads_back,
    fun d => (Decision.stored d.property).reads_back⟩

/-- A call with an integer, a binary number and a list in its arguments. -/
def measuring : Call :=
  ⟨"measure", .object [("limits", .array [.number (.int (-3)), .null]),
    ("weight", .number (.float ⟨false, 4503599627370496, -53⟩))]⟩

/-- A state after a failed call, with a part of every kind. -/
def measured : RunState where
  goal := ⟨"measure it", ["twice"], .epoch⟩
  subgoals := ["measure \"a\"", "measure b"]
  lastAction := some (.callTool measuring 2 (.millis 1500))
  lastObservation := some
    ⟨"measure", "measure failed (timeout): no answer", Keyed.empty.insert "error_code" "timeout",
      ["retry"], { Result.failure measuring 2 .timeout "no answer" with
        retryAfter := some (.seconds 1) }⟩
  lastCritique := some (.neutral "nothing yet")
  budget := .standard
  turnIndex := 2
  digest := ⟨Keyed.empty.insert "measure.error_code" ⟨"timeout", 2, 2⟩, ["turn 2: call measure"], 0⟩

theorem measuring_storable : measuring.Storable where
  args := by
    have hlimit : (Number.int (-3)).ReadsBack := Number.readsBack_int (by decide) (by decide)
    have hweight : (Number.float ⟨false, 4503599627370496, -53⟩).ReadsBack := by
      change Json.parse _ = _
      rfl
    exact .object (by decide) (by simp [hlimit, hweight])

theorem measured_storable : measured.Storable where
  goal := by decide
  lastAction := by
    rintro _ ⟨⟩
    exact ⟨measuring_storable, by decide, by decide⟩
  lastObservation := by
    rintro _ ⟨⟩
    exact {
      call := measuring_storable
      data := storable_null
      attempt := by decide
      latency := by decide
      retryAfter := by
        rintro _ ⟨⟩
        decide }
  budget := ⟨by decide, by decide⟩
  turnIndex := by decide
  digest := ⟨by
    intro p hp
    obtain rfl : p = _ := List.mem_singleton.1 hp
    exact ⟨by decide, by decide⟩, by decide⟩

/-- Both statements at a state with a part of every kind and at the decision it came from. -/
theorem printed_reads_back_measured :
    (measured.Storable ∧ (RunState.codec.encode measured).depth ≤ 127 ∧
      RunState.codec.ofText (RunState.codec.encode measured).pretty = .ok measured) ∧
    ((Decision.callTool measuring).Storable ∧
      (Decision.codec.encode (.callTool measuring)).depth ≤ 127 ∧
      Decision.codec.ofText (Decision.codec.encode (.callTool measuring)).compact =
        .ok (.callTool measuring)) :=
  have hs : (RunState.codec.encode measured).depth ≤ 127 := by decide
  have hd : (Decision.codec.encode (.callTool measuring)).depth ≤ 127 := by decide
  ⟨⟨measured_storable, hs, (printed_reads_back.1 ⟨_, measured_storable⟩ hs).1⟩,
    measuring_storable, hd, (printed_reads_back.2 ⟨.callTool measuring, measuring_storable⟩ hd).2⟩

end Conductor

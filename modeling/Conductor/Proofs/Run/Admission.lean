import Conductor.Proofs.Run.Contract
import Conductor.Proofs.Run.Deeds
import Conductor.Proofs.Tool.Arguments

/-!
# Calls that are admitted

Before the body of a tool is started the arguments of the call are filled up with the defaults of
its parameters, and compared with their declaration. The body is started for arguments that are
admitted and for no others, and it is given just these.

* `Executor.execute_admitted` : the body is started once, and its end decides on the result;
* `Executor.execute_refused` : the call is refused and told what is missing;
* `Executor.input_contract` : **a body is started exactly for arguments that are admitted.**
-/

namespace Conductor

open Outside Session

namespace Executor

variable {σ : Type} (x : Executor) {c : Call} {n : Nat} {r : Result} {s s' : Session σ}
  {tool : Tool} {a : Json}

/-- Arguments that are admitted are given to the body, and its end decides on the result. -/
theorem execute_admitted (htool : x.registry.get? c.name = some tool)
    (hnames : (tool.parameters.map (·.name)).Nodup)
    (hargs : Parameter.applyDefaults tool.parameters c.args = a)
    (hopen : s.clock.look.cancelled = false) (h : (x.execute c n).run s = (r, s'))
    (hadmits : Parameter.Admits tool.parameters a) :
    ∃ audit ms, s.Does [.invoked tool.name a, .audited audit] s' ∧
      r = { conclude tool (x.timeoutOf tool) c n (x.ends tool a n s) with
        latency := .millis ms } := by
  obtain ⟨r₀, s₁, ms, ho, hn, rfl⟩ := x.execute_outcome h
  have hsound := (Parameter.violationsOf_inputSchema hnames).2 hadmits
  simp only [outcome, outcomeUnder, htool, hargs, hsound] at ho
  obtain ⟨e, s₂, hi, ho⟩ := run_bind_eq.1 ho
  obtain ⟨rfl, rfl⟩ := run_pure_eq.1 ho
  refine ⟨_, ms, ((x.invoke_starts hi hopen).1.trans (note_does hn (fun _ => rfl) rfl rfl)), ?_⟩
  rw [x.invoke_ends hi]
  rfl

/-- Other arguments are refused. -/
theorem execute_refused (htool : x.registry.get? c.name = some tool)
    (hnames : (tool.parameters.map (·.name)).Nodup)
    (hargs : Parameter.applyDefaults tool.parameters c.args = a)
    (h : (x.execute c n).run s = (r, s')) (hadmits : ¬ Parameter.Admits tool.parameters a) :
    (∃ audit, s.Does [.audited audit] s') ∧ r.ok = false ∧ r.code = .invalidInput ∧
      r.missingFields = Parameter.missingRequired tool.parameters a := by
  obtain ⟨r₀, s₁, ms, ho, hn, rfl⟩ := x.execute_outcome h
  have hflawed := mt (Parameter.violationsOf_inputSchema hnames).1 hadmits
  simp only [outcome, outcomeUnder, htool, hargs] at ho
  obtain ⟨rfl, rfl⟩ := run_pure_eq.1 ho
  exact ⟨⟨_, note_does hn (fun _ => rfl) rfl rfl⟩, rfl, rfl, rfl⟩

/-- **The body of a tool is started exactly for arguments that are admitted**, in a run that goes
on. The arguments are filled up with defaults. If a tool with these parameters admits them, its body
is started once and is given just them, and its end decides on the result; otherwise nothing is
started, and the result is that of an invalid input, which says what is missing. Where anything is
missing nothing is admitted, and neither is what is no object and does not stand for one. -/
theorem input_contract (htool : x.registry.get? c.name = some tool)
    (hnames : (tool.parameters.map (·.name)).Nodup)
    (hargs : Parameter.applyDefaults tool.parameters c.args = a)
    (hopen : s.clock.look.cancelled = false) (h : (x.execute c n).run s = (r, s')) :
    Parameter.Fills tool.parameters c.args a ∧
    ((∃ audit, s.Does [.invoked tool.name a, .audited audit] s') ↔
      Parameter.Admits tool.parameters a) ∧
    (Parameter.Admits tool.parameters a → ∃ ms, r =
      { conclude tool (x.timeoutOf tool) c n (x.ends tool a n s) with latency := .millis ms }) ∧
    (¬ Parameter.Admits tool.parameters a → (∃ audit, s.Does [.audited audit] s') ∧
      r.ok = false ∧ r.code = .invalidInput ∧ Parameter.Lacks tool.parameters a r.missingFields) ∧
    (Parameter.missingRequired tool.parameters a ≠ [] → ¬ Parameter.Admits tool.parameters a) ∧
    (c.args.isObject = false → c.args ≠ .null → ¬ Parameter.Admits tool.parameters a) := by
  have hfills : Parameter.Fills tool.parameters c.args a :=
    hargs ▸ Parameter.fills_applyDefaults hnames c.args
  have hadmitted := x.execute_admitted htool hnames hargs hopen h
  have hrefused := x.execute_refused htool hnames hargs h
  refine ⟨hfills, ⟨?_, ?_⟩, ?_, ?_, ?_, ?_⟩
  · rintro ⟨audit, hstarted⟩
    by_contra hno
    obtain ⟨⟨audit', hdoes⟩, -⟩ := hrefused hno
    cases hstarted.unique hdoes
  · intro hadmits
    obtain ⟨audit, ms, hdoes, -⟩ := hadmitted hadmits
    exact ⟨audit, hdoes⟩
  · intro hadmits
    obtain ⟨audit, ms, -, hr⟩ := hadmitted hadmits
    exact ⟨ms, hr⟩
  · intro hno
    obtain ⟨hdoes, hok, hcode, hmissing⟩ := hrefused hno
    exact ⟨hdoes, hok, hcode, hmissing ▸ Parameter.lacks_missingRequired tool.parameters a⟩
  · exact fun hmissing hadmits => hmissing hadmits.missingRequired_eq_nil
  · intro hno hnull hadmits
    have hobject := hadmits.isObject
    rw [hfills.other hno hnull, hno] at hobject
    cases hobject

/-- A tool that looks a text up and gives its arguments back. -/
def finding : Tool where
  __ := Tool.rehearsed "find" []
  parameters := [.mandatory "query" .string,
    { Parameter.optional "limit" .integer with default := some (.nat 10) }]

/-- An executor with this tool alone. -/
def finder : Executor := .plain (.ofList [finding]) 30

/-- The tool is started with the default of its limit, and not at all without a text. -/
theorem input_contract_finder :
    (∃ audit, Session.rehearsed.Does
      [.invoked "find" (.object [("limit", .nat 10), ("query", .string "rust")]), .audited audit]
      ((finder.execute ⟨"find", .object [("query", .string "rust")]⟩ 1).run Session.rehearsed).2) ∧
    (∃ audit, Session.rehearsed.Does [.audited audit]
      ((finder.execute ⟨"find", .null⟩ 1).run Session.rehearsed).2) ∧
    Parameter.Lacks finding.parameters (.object [("limit", .nat 10)])
      ((finder.execute ⟨"find", .null⟩ 1).run Session.rehearsed).1.missingFields := by
  have htool : finder.registry.get? "find" = some finding := rfl
  have hnames : (finding.parameters.map (·.name)).Nodup := by decide
  obtain ⟨-, hstarted, -⟩ := finder.input_contract (s := .rehearsed) (n := 1)
    (c := ⟨"find", .object [("query", .string "rust")]⟩) htool hnames rfl rfl rfl
  obtain ⟨-, -, -, hrefused, hmissing, -⟩ := finder.input_contract (s := .rehearsed) (n := 1)
    (c := ⟨"find", .null⟩) htool hnames rfl rfl rfl
  obtain ⟨hdoes, -, -, hlacks⟩ := hrefused (hmissing (by decide))
  exact ⟨hstarted.2 ((Parameter.violationsOf_inputSchema hnames).1 rfl), hdoes, hlacks⟩

end Executor

end Conductor

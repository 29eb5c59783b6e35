import Conductor.Proofs.Digest.Compression
import Conductor.Proofs.Run.Newest

/-!
# Facts of different tools

A fact is known under the name of its tool, a dot and its path. Names and paths may hold dots
themselves, so two tools can share a key: `fs` with the path `read.size` and `fs.read` with the path
`size`. In a run that began afresh every entry is the fact that was written last under its key, and
a call of another tool leaves it alone unless it has a fact under the very same key.

* `dotted_eq_iff` : **two names and paths give the same key exactly if one name goes on where the
  other ends;**
* `Digest.Leaves` : an entry is there, or it gave way when the table was compressed;
* `Agent.lastWriter` : the last turn that wrote a key;
* `Agent.Chronicle.wrote` : **every entry is what the last turn that wrote its key has observed;**
* `Agent.isolated_iff` : **a call leaves the entry of another tool alone exactly if no fact of its
  own shares the key.**
-/

namespace Conductor

/-! ### Names with dots -/

section Dotted

variable {a b p q : String}

/-- A name that goes on where another one ends. -/
theorem exists_of_dotted {x : List Char} (h : a ≠ b) (hname : b.toList = a.toList ++ x)
    (hpath : '.' :: p.toList = x ++ '.' :: q.toList) :
    ∃ u, b = a ++ "." ++ u ∧ p = u ++ "." ++ q := by
  cases x with
  | nil =>
    rw [List.append_nil, String.toList_inj] at hname
    exact absurd hname.symm h
  | cons d u =>
    rw [List.cons_append, List.cons.injEq] at hpath
    obtain ⟨rfl, hpath⟩ := hpath
    refine ⟨String.ofList u, String.toList_inj.1 ?_, String.toList_inj.1 ?_⟩
    · simp [hname]
    · simp [hpath]

/-- **Two names and paths give the same key exactly if one name goes on where the other ends**, and
the path of the other one goes on in the same way. -/
theorem dotted_eq_iff (h : a ≠ b) : a ++ "." ++ p = b ++ "." ++ q ↔
    (∃ u, b = a ++ "." ++ u ∧ p = u ++ "." ++ q) ∨
      ∃ u, a = b ++ "." ++ u ∧ q = u ++ "." ++ p := by
  constructor
  · intro heq
    have hchars : a.toList ++ '.' :: p.toList = b.toList ++ '.' :: q.toList := by
      simpa using congrArg String.toList heq
    rcases List.append_eq_append_iff.1 hchars with ⟨x, hname, hpath⟩ | ⟨x, hname, hpath⟩
    · exact .inl (exists_of_dotted h hname hpath)
    · exact .inr (exists_of_dotted h.symm hname hpath)
  · rintro (⟨u, rfl, rfl⟩ | ⟨u, rfl, rfl⟩) <;> simp only [String.append_assoc]

end Dotted

namespace Observation

/-- A fact of the observation has the key of this path of another tool: the name of one of the two
tools goes on where the name of the other one ends. -/
def Crosses (o : Observation) (tool path : String) : Prop :=
  (∃ u q, o.tool = tool ++ "." ++ u ∧ path = u ++ "." ++ q ∧ (o.facts.get? q).isSome) ∨
    ∃ u, tool = o.tool ++ "." ++ u ∧ (o.facts.get? (u ++ "." ++ path)).isSome

/-- The key of a fact is the name of the tool, a dot and the path. -/
theorem mem_keys_namedFacts {o : Observation} {k : String} :
    k ∈ (RunState.namedFacts o).map (·.1) ↔
      ∃ q v, o.facts.get? q = some v ∧ k = o.tool ++ "." ++ q := by
  constructor
  · intro h
    obtain ⟨_, hfact, rfl⟩ := List.mem_map.1 h
    obtain ⟨⟨q, v⟩, hmem, rfl⟩ := List.mem_map.1 hfact
    exact ⟨q, v, Keyed.get?_of_mem hmem, rfl⟩
  · rintro ⟨q, v, hfact, rfl⟩
    exact List.mem_map_of_mem (RunState.mem_namedFacts hfact)

/-- **A fact has the key of another tool exactly if it crosses the path there.** -/
theorem crosses_iff {o : Observation} {tool path : String} (h : tool ≠ o.tool) :
    tool ++ "." ++ path ∈ (RunState.namedFacts o).map (·.1) ↔ o.Crosses tool path := by
  rw [mem_keys_namedFacts]
  constructor
  · rintro ⟨q, v, hfact, hkey⟩
    rcases (dotted_eq_iff h).1 hkey with ⟨u, htool, hpath⟩ | ⟨u, htool, rfl⟩
    · exact .inl ⟨u, q, htool, hpath, Option.isSome_of_eq_some hfact⟩
    · exact .inr ⟨u, htool, Option.isSome_of_eq_some hfact⟩
  · rintro (⟨u, q, htool, hpath, hfact⟩ | ⟨u, htool, hfact⟩)
    · obtain ⟨v, hv⟩ := Option.isSome_iff_exists.1 hfact
      exact ⟨q, v, hv, (dotted_eq_iff h).2 (.inl ⟨u, htool, hpath⟩)⟩
    · obtain ⟨v, hv⟩ := Option.isSome_iff_exists.1 hfact
      exact ⟨_, v, hv, (dotted_eq_iff h).2 (.inr ⟨u, htool, rfl⟩)⟩

/-- Tools without dots in their names never cross. -/
theorem not_crosses_of_notMem {o : Observation} {tool path : String} (h : '.' ∉ o.tool.toList)
    (h' : '.' ∉ tool.toList) : ¬ o.Crosses tool path := by
  have hdot (a u : String) : '.' ∈ (a ++ "." ++ u).toList := by simp
  rintro (⟨u, -, htool, -⟩ | ⟨u, htool, -⟩)
  · exact h (htool ▸ hdot tool u)
  · exact h' (htool ▸ hdot o.tool u)

end Observation

/-! ### Entries that are left -/

namespace Digest

variable {limits : DigestLimits} {d : Digest} {t : Keyed Entry} {turn : Nat}
  {facts : List (String × String)} {k : String} {e : Entry}

/-- The entry is there, or it has given way when this table was compressed. -/
def Leaves (limits : DigestLimits) (t : Keyed Entry) (after : Digest) (k : String) (e : Entry) :
    Prop :=
  after.entries.get? k = some e ∨ (after.entries.get? k = none ∧ (k, e) ∈ victims limits t)

/-- **Putting facts in leaves just what they were written into**, or it has given way. -/
theorem leaves_fold_iff :
    Leaves limits (noted turn facts d.entries) (d.fold limits turn facts) k e ↔
      (noted turn facts d.entries).get? k = some e := by
  constructor
  · rintro (hafter | ⟨-, hgone⟩)
    · have hkept := mem_compress.1 (Keyed.mem_of_get? hafter)
      exact Keyed.get?_of_mem ((mem_entries_iff limits).2 (.inr hkept))
    · exact Keyed.get?_of_mem ((mem_entries_iff limits).2 (.inl hgone))
  · intro h
    rcases (mem_entries_iff limits).1 (Keyed.mem_of_get? h) with hgone | hkept
    · refine .inr ⟨?_, hgone⟩
      cases hget : (d.fold limits turn facts).entries.get? k with
      | none => rfl
      | some e' =>
        have hkept := mem_compress.1 (Keyed.mem_of_get? hget)
        exact (key_ne_of_mem hgone hkept rfl).elim
    · exact .inl (Keyed.get?_of_mem (mem_compress.2 hkept))

/-- **An entry is unchanged exactly if no fact has its key**: what is written is one update more. -/
theorem get?_noted_iff_notMem (hkeys : (facts.map (·.1)).Nodup) (h : t.get? k = some e) :
    (noted turn facts t).get? k = some e ↔ k ∉ facts.map (·.1) := by
  constructor
  · intro hsame hmem
    obtain ⟨⟨_, v⟩, hfact, rfl⟩ := List.mem_map.1 hmem
    rw [get?_noted_eq_written hkeys hfact, h, Option.some_inj] at hsame
    have hupdates : (e.updates + 1) % 2 ^ 32 = e.updates := congrArg Entry.updates hsame
    omega
  · intro hno
    rw [get?_noted_of_notMem hno, h]

end Digest

namespace Agent

variable {σ : Type} {a : Agent σ} {runId : String} {policy : FailurePolicy}

/-! ### Who wrote an entry -/

namespace CompletedTurn

variable (t u : a.CompletedTurn runId policy)

/-- The keys that the turn has written: those of the facts that it has observed. -/
def writtenKeys : List String :=
  (t.next.lastObservation.elim [] RunState.namedFacts).map (·.1)

/-- The entry is known after a turn that has made this observation, or it has given way to its
facts. -/
def Leaves (o : Observation) (k : String) (e : Digest.Entry) : Prop :=
  Digest.Leaves a.digestLimits
    (Digest.noted (t.before.turnIndex + 1) (RunState.namedFacts o) t.before.digest.entries)
    t.next.digest k e

/-- The entry is what the turn has observed under this path of the output of a tool. -/
structure Wrote (k : String) (e : Digest.Entry) (o : Observation) (path : String) : Prop where
  observed : u.next.lastObservation = some o
  key : k = o.tool ++ "." ++ path
  value : o.facts.get? path = some e.value
  turn : e.turn = u.next.turnIndex

variable {t} {k : String} {e : Digest.Entry} {o : Observation}

/-- The entries after a turn without an observation are those from before. -/
theorem entries_of_unseen (h : t.next.lastObservation = none) :
    t.next.digest.entries = t.before.digest.entries := by
  obtain ⟨seen, critique, hnext⟩ := t.yields.advances
  obtain rfl : seen = none := (congrArg RunState.lastObservation hnext).symm.trans h
  rw [next, hnext]
  exact (t.before.logged_spec a.digestLimits t.action).1

/-- **A turn leaves just what its facts were written into**, or it has given way. -/
theorem leaves_iff (h : t.next.lastObservation = some o) : t.Leaves o k e ↔
    (Digest.noted (t.before.turnIndex + 1) (RunState.namedFacts o)
      t.before.digest.entries).get? k = some e := by
  obtain ⟨seen, critique, hnext⟩ := t.yields.advances
  obtain rfl : seen = some o := (congrArg RunState.lastObservation hnext).symm.trans h
  rw [Leaves, next, hnext, ← (t.before.logged_spec a.digestLimits t.action).1]
  exact Digest.leaves_fold_iff

/-- **After a turn an entry is what the turn has observed, or it was there before** and the turn has
not written its key. -/
theorem wrote_or (h : t.next.digest.entries.get? k = some e) :
    (k ∈ t.writtenKeys ∧ ∃ o path, t.Wrote k e o path) ∨
      (k ∉ t.writtenKeys ∧ t.before.digest.entries.get? k = some e) := by
  rw [writtenKeys]
  cases hseen : t.next.lastObservation with
  | none => exact .inr ⟨List.not_mem_nil, entries_of_unseen hseen ▸ h⟩
  | some o =>
    have hnoted := (leaves_iff hseen).1 (.inl h)
    rw [Option.elim_some]
    by_cases hk : k ∈ (RunState.namedFacts o).map (·.1)
    · obtain ⟨q, v, hfact, rfl⟩ := Observation.mem_keys_namedFacts.1 hk
      obtain ⟨e', hwritten, hvalue, hturn⟩ := Digest.get?_noted_of_mem t.before.digest.entries
        (t.before.turnIndex + 1) (RunState.nodup_namedFacts o) (RunState.mem_namedFacts hfact)
      obtain rfl := Option.some.inj (hnoted.symm.trans hwritten)
      exact .inl ⟨hk, o, q, hseen, rfl, hvalue ▸ hfact, hturn.trans t.next_turnIndex.symm⟩
    · rw [Digest.get?_noted_of_notMem hk] at hnoted
      exact .inr ⟨hk, hnoted⟩

end CompletedTurn

/-- The last of some turns that has written a key. -/
def lastWriter (done : List (a.CompletedTurn runId policy)) (k : String) :
    Option (a.CompletedTurn runId policy) :=
  done.reverse.find? (k ∈ ·.writtenKeys)

theorem lastWriter_concat (done : List (a.CompletedTurn runId policy))
    (t : a.CompletedTurn runId policy) (k : String) :
    lastWriter (done ++ [t]) k = if k ∈ t.writtenKeys then some t else lastWriter done k := by
  rw [lastWriter, List.reverse_concat, List.find?_cons]
  by_cases h : k ∈ t.writtenKeys
  · rw [decide_eq_true h, if_pos h]
  · rw [decide_eq_false h, if_neg h, lastWriter]

variable {goal : Goal} {budget : Budget} {s : Session σ}

/-- **In a run that began afresh every entry is what the last turn that wrote its key has
observed.** -/
theorem Chronicle.wrote (c : a.Chronicle runId goal budget policy s)
    (hfresh : c.first = .initial goal budget) {done rest : List (a.CompletedTurn runId policy)}
    (hturns : a.turns runId goal budget policy s = done ++ rest) :
    ∀ k e, (stateAfter c.first done).digest.entries.get? k = some e →
      ∃ u o path, lastWriter done k = some u ∧ u.Wrote k e o path := by
  refine c.course.invariant (P := fun done state => ∀ k e,
    state.digest.entries.get? k = some e →
      ∃ u o path, lastWriter done k = some u ∧ u.Wrote k e o path) ?_ ?_ hturns
  · -- a fresh digest has no entries
    intro k e h
    rw [hfresh] at h
    cases h
  · intro done t ih k e h
    rw [lastWriter_concat]
    rcases CompletedTurn.wrote_or h with ⟨hk, o, path, hwrote⟩ | ⟨hk, hbefore⟩
    · exact ⟨t, o, path, if_pos hk, hwrote⟩
    · rw [if_neg hk]
      exact ih k e hbefore

/-! ### Calls of other tools -/

/-- **A call leaves the facts of the other tools alone exactly if none of its own has their key.**
In a run that began afresh every entry that a call finds is what the last turn that wrote its key
has observed. If this was the observation of another tool, the entry is unchanged after the call or
has given way, unless the name of one of the two tools goes on after a dot where the name of the
other one ends, and leads to the same key. Then it is overwritten with a fact of the call. -/
theorem isolated_iff (hfresh : a.firstState runId goal budget s = .initial goal budget) :
    ∀ done t rest, a.turns runId goal budget policy s = done ++ t :: rest →
    ∀ c n w, t.action = .callTool c n w → ∃ o, t.next.lastObservation = some o ∧ o.IsOf c n ∧
    ∀ k e, t.before.digest.entries.get? k = some e →
      ∃ u o' path, lastWriter done k = some u ∧ u.Wrote k e o' path ∧ (o'.tool ≠ o.tool →
        (t.Leaves o k e ↔ ¬ o.Crosses o'.tool path) ∧
        (o.Crosses o'.tool path → ∃ v, (k, v) ∈ RunState.namedFacts o ∧
          t.Leaves o k ⟨v, t.next.turnIndex, (e.updates + 1) % 2 ^ 32⟩) ∧
        ('.' ∉ o.tool.toList → '.' ∉ o'.tool.toList → t.Leaves o k e)) := by
  intro done t rest hturns c n w haction
  obtain ⟨chronicle⟩ := a.exists_chronicle runId policy goal budget s
  have hfirst : chronicle.first = .initial goal budget := chronicle.firstState_eq ▸ hfresh
  have hyields : a.Yields t.before (.callTool c n w) t.outcome := haction ▸ t.yields
  obtain ⟨o, -, hseen, hof, -⟩ := hyields.folds
  change t.next.lastObservation = some o at hseen
  refine ⟨o, hseen, hof, fun k e hentry => ?_⟩
  have hbefore : t.before = stateAfter chronicle.first done := by
    have hcourse := chronicle.course
    rw [hturns] at hcourse
    exact hcourse.before_eq
  obtain ⟨u, o', path, hlast, hwrote⟩ := chronicle.wrote hfirst hturns k e (hbefore ▸ hentry)
  refine ⟨u, o', path, hlast, hwrote, fun hother => ?_⟩
  have hkeys := RunState.nodup_namedFacts o
  have hcrosses : k ∈ (RunState.namedFacts o).map (·.1) ↔ o.Crosses o'.tool path :=
    hwrote.key ▸ Observation.crosses_iff hother
  have halone : t.Leaves o k e ↔ ¬ o.Crosses o'.tool path := by
    rw [CompletedTurn.leaves_iff hseen, Digest.get?_noted_iff_notMem hkeys hentry, hcrosses]
  refine ⟨halone, fun hcross => ?_, fun hname hname' => ?_⟩
  · obtain ⟨⟨_, v⟩, hfact, rfl⟩ := List.mem_map.1 (hcrosses.2 hcross)
    refine ⟨v, hfact, (CompletedTurn.leaves_iff hseen).2 ?_⟩
    rw [Digest.get?_noted_eq_written hkeys hfact, hentry, t.next_turnIndex]
    rfl
  · exact halone.2 (Observation.not_crosses_of_notMem hname hname')

/-- Reads a file, and then its size, with a tool whose name goes on where the other ends. -/
def reading : Agent StateStore.Table :=
  Agent.rehearsed
    [.rehearsed "fs" [.output (.object [("read", .object [("size", .string "1")])])],
      .rehearsed "fs.read" [.output (.object [("size", .string "2")])]]
    [.calls "fs", .calls "fs.read"]

/-- The turns of its run. -/
def readingTurns : List (reading.CompletedTurn "run" .standard) :=
  reading.turns "run" .rehearsed .standard .standard .rehearsed

theorem reading_run : readingTurns.map (fun t =>
      (t.next.lastObservation.map fun o => (o.tool, o.facts.entries),
        t.before.digest.get? "fs.read.size", t.next.digest.get? "fs.read.size")) =
    [(some ("fs", [("read.size", "1")]), none, some "1"),
      (some ("fs.read", [("size", "2")]), some "1", some "2")] := by decide +kernel

/-- The two turns of the run, and what they observe under the same key. -/
theorem reading_turns : ∃ t u o o' e, readingTurns = [u, t] ∧
    u.next.lastObservation = some o' ∧ o'.tool = "fs" ∧ o'.facts.get? "read.size" = some "1" ∧
    t.next.lastObservation = some o ∧ o.tool = "fs.read" ∧ o.facts.get? "size" = some "2" ∧
    t.before.digest.entries.get? "fs.read.size" = some e ∧ e.value = "1" ∧
    t.next.digest.get? "fs.read.size" = some "2" := by
  obtain ⟨u, rest, hturns, hu, hrest⟩ := List.map_eq_cons_iff.1 reading_run
  obtain ⟨t, rest, rfl, ht, hrest⟩ := List.map_eq_cons_iff.1 hrest
  obtain rfl := List.map_eq_nil_iff.1 hrest
  obtain ⟨hu, -⟩ := Prod.mk.inj hu
  obtain ⟨ht, hdigests⟩ := Prod.mk.inj ht
  obtain ⟨hbefore, hafter⟩ := Prod.mk.inj hdigests
  obtain ⟨o', ho', hfacts'⟩ := Option.map_eq_some_iff.1 hu
  obtain ⟨o, ho, hfacts⟩ := Option.map_eq_some_iff.1 ht
  obtain ⟨htool', hentries'⟩ := Prod.mk.inj hfacts'
  obtain ⟨htool, hentries⟩ := Prod.mk.inj hfacts
  obtain ⟨e, hentry, hvalue⟩ := Option.map_eq_some_iff.1 hbefore
  refine ⟨t, u, o, o', e, hturns, ho', htool', ?_, ho, htool, ?_, hentry, hvalue, hafter⟩
  · exact Keyed.get?_of_mem (hentries' ▸ List.mem_singleton_self _)
  · exact Keyed.get?_of_mem (hentries ▸ List.mem_singleton_self _)

/-- The size is known under the key of the fact from the first turn, which is lost. -/
theorem isolated_iff_reading : ∃ t u o e, readingTurns = [u, t] ∧
    t.next.lastObservation = some o ∧ o.Crosses "fs" "read.size" ∧
    t.before.digest.entries.get? "fs.read.size" = some e ∧ ¬ t.Leaves o "fs.read.size" e := by
  obtain ⟨t, u, o, o', e, hturns, ho', htool', -, ho, htool, hsize, hentry, -⟩ := reading_turns
  obtain ⟨c, n, w, haction, -⟩ := t.yields.observed ho
  obtain ⟨o₂, ho₂, -, hall⟩ := isolated_iff (a := reading) rfl [u] t [] hturns c n w haction
  obtain rfl := Option.some.inj (ho.symm.trans ho₂)
  obtain ⟨u₁, o₁, path, hlast, hwrote, hother⟩ := hall _ _ hentry
  -- only the first turn comes before
  obtain rfl : u₁ = u := List.mem_singleton.1 (List.mem_of_find?_eq_some hlast)
  obtain rfl := Option.some.inj (ho'.symm.trans hwrote.observed)
  have hkey : "fs" ++ "." ++ "read.size" = o'.tool ++ "." ++ path :=
    Eq.trans (by decide) hwrote.key
  rw [htool', String.append_right_inj] at hkey
  have hcross : o.Crosses "fs" "read.size" :=
    .inl ⟨"read", "size", htool, rfl, Option.isSome_of_eq_some hsize⟩
  rw [htool', htool, ← hkey] at hother
  obtain ⟨halone, -⟩ := hother (by decide)
  exact ⟨t, u₁, o, e, hturns, ho, hcross, hentry, fun h => halone.1 h hcross⟩

/-- Facts of different tools are not kept apart: a call may overwrite the fact of another tool. -/
theorem dotted_tool_overwrites : ¬ ∀ (a : Agent StateStore.Table) (runId : String)
    (policy : FailurePolicy) (goal : Goal) (budget : Budget) (s : Session StateStore.Table),
    a.firstState runId goal budget s = .initial goal budget →
    ∀ done t rest, a.turns runId goal budget policy s = done ++ t :: rest →
    ∀ o, t.next.lastObservation = some o →
    ∀ k e u o', t.before.digest.entries.get? k = some e → lastWriter done k = some u →
      u.next.lastObservation = some o' → o'.tool ≠ o.tool → t.Leaves o k e := by
  intro hall
  obtain ⟨t, u, o, o', e, hturns, ho', htool', hsize, ho, htool, -, hentry, hvalue, hafter⟩ :=
    reading_turns
  have hwritten : "fs.read.size" ∈ u.writtenKeys := by
    rw [CompletedTurn.writtenKeys, ho']
    exact Observation.mem_keys_namedFacts.2 ⟨"read.size", "1", hsize, by rw [htool']; rfl⟩
  have hlast : lastWriter [u] "fs.read.size" = some u := by
    rw [← List.nil_append [u], lastWriter_concat, if_pos hwritten]
  have hother : o'.tool ≠ o.tool := by
    rw [htool', htool]
    decide
  have hleaves := hall reading "run" .standard .rehearsed .standard .rehearsed rfl [u] t [] hturns o
    ho _ _ u o' hentry hlast ho' hother
  -- but the value under the key is another one after the second turn
  rw [Digest.get?] at hafter
  rcases hleaves with h | ⟨h, -⟩
  · rw [h, Option.map_some, hvalue] at hafter
    exact absurd hafter (by decide)
  · rw [h] at hafter
    cases hafter

end Agent

end Conductor

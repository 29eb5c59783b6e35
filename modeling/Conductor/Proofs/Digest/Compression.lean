import Conductor.Proofs.Digest.Log
import Mathlib.Order.Bounds.Defs

/-!
# What putting facts in leaves behind

Facts are written in order, and a key may be written more than once. What is under a key then is
said by the values that were written under it. If the table has become too large, its lowest entries
give way to one line, which is the last one in the log.

* `Digest.rewritten`, `Digest.get?_noted` : **what is under a key after some facts;**
* `Digest.Below` : the rank by turn, updates and key, in which no two entries of a table are equal;
* `Digest.Tells` : what the line for some entries says;
* `Digest.Compresses` : some entries of a table give way, just as many as it has too many;
* `Digest.fold_compresses` : **putting facts in writes them and compresses the table.**
-/

namespace Conductor

namespace Digest

variable {limits : DigestLimits} {d : Digest} {t : Keyed Entry} {p q : String × Entry}
  {turn : Nat} {facts : List (String × String)}

/-! ### Keys that are written more than once -/

/-- The values that some facts write under a key, in order. -/
def valuesOf (k : String) (facts : List (String × String)) : List String :=
  (facts.filter (·.1 = k)).map (·.2)

/-- The entry of a key under which some values have been written in a turn: the last one counts, and
every one is an update. The updates are counted in 32 bits. -/
def rewritten (turn : Nat) (values : List String) (before : Option Entry) : Option Entry :=
  match values.getLast? with
  | none => before
  | some v => some ⟨v, turn, (before.elim 0 (·.updates) + values.length) % Nat.pow 2 32⟩

theorem rewritten_cons (turn : Nat) (v : String) (values : List String) (before : Option Entry) :
    rewritten turn (v :: values) before = rewritten turn values (some (written before turn v)) := by
  have hupdates :
      (written before turn v).updates = (before.elim 0 (·.updates) + 1) % Nat.pow 2 32 := by
    cases before <;> rfl
  unfold rewritten
  rw [List.getLast?_cons]
  cases hlast : values.getLast? with
  | none =>
    obtain rfl := List.getLast?_eq_none_iff.1 hlast
    cases before <;> rfl
  | some w =>
    simp only [Option.getD_some, Option.elim_some, hupdates, List.length_cons]
    rw [Nat.mod_add_mod, Nat.add_assoc, Nat.add_comm 1]

/-- As long as the updates of a key fit 32 bits, they are increased by one for every value. -/
theorem updates_rewritten {values : List String} {before : Option Entry} {e : Entry}
    (hrange : before.elim 0 (·.updates) + values.length < 2 ^ 32) (hvalues : values ≠ [])
    (h : rewritten turn values before = some e) :
    e.updates = before.elim 0 (·.updates) + values.length := by
  obtain ⟨v, hv⟩ := Option.isSome_iff_exists.1 (List.getLast?_isSome.2 hvalues)
  simp only [rewritten, hv, Option.some_inj] at h
  rw [← h]
  exact Nat.mod_eq_of_lt hrange

/-- **After some facts were written, the last value of a key is under it**, from their turn, with
one more update for every time it was written, counted in 32 bits. Other keys have what they had. -/
theorem get?_noted (turn : Nat) (facts : List (String × String)) (t : Keyed Entry) (k : String) :
    (noted turn facts t).get? k = rewritten turn (valuesOf k facts) (t.get? k) := by
  induction facts generalizing t with
  | nil => rfl
  | cons fact facts ih =>
    refine (ih (upsert turn t fact)).trans ?_
    rw [upsert, Keyed.get?_insert, valuesOf, valuesOf]
    by_cases hk : fact.1 = k
    · subst hk
      rw [if_pos rfl, List.filter_cons_of_pos (by simp), List.map_cons, rewritten_cons]
    · rw [if_neg (Ne.symm hk), List.filter_cons_of_neg (by simpa using hk)]

example : rewritten 7 (valuesOf "b" [("b", "1"), ("a", "2"), ("b", "3")]) (some ⟨"0", 4, 1⟩) =
    some ⟨"3", 7, 3⟩ := by decide

example : rewritten 7 ["1"] (some ⟨"0", 4, 4294967295⟩) = some ⟨"1", 7, 0⟩ := by decide

/-! ### The strict rank -/

/-- The first entry ranks below the second: by turn, then by updates, then by key. -/
def Below (p q : String × Entry) : Prop :=
  p.2.turn < q.2.turn ∨ (p.2.turn = q.2.turn ∧
    (p.2.updates < q.2.updates ∨ (p.2.updates = q.2.updates ∧ p.1 < q.1)))

theorem below_of_rankLe (h : rankLe p q = true) (hkeys : p.1 ≠ q.1) : Below p q := by
  rcases rankLe_iff.1 h with h | ⟨hturn, h | ⟨hupdates, hle⟩⟩
  · exact .inl h
  · exact .inr ⟨hturn, .inl h⟩
  · have hlt : p.1 < q.1 := String.not_le.1 fun hge => hkeys (String.le_antisymm hle hge)
    exact .inr ⟨hturn, .inr ⟨hupdates, hlt⟩⟩

theorem ranked_below (t : Keyed Entry) : (ranked t).Pairwise Below :=
  (List.Pairwise.and (ranked_pairwise t) (List.pairwise_map.1 (nodup_ranked_keys t))).imp
    fun h => below_of_rankLe h.1 h.2

/-! ### The line for entries that have given way -/

/-- The line says how many entries have given way, what the first and the last of their turns are,
and which ones come first among them. -/
def Tells (gone : List (String × Entry)) (line : String) : Prop :=
  ∃ first last, IsLeast {n | n ∈ gone.map (·.2.turn)} first ∧
    IsGreatest {n | n ∈ gone.map (·.2.turn)} last ∧
    line = "compressed " ++ toString gone.length ++ " fact(s) from " ++
      (if first = last then "turn " ++ toString first
        else "turns " ++ toString first ++ "-" ++ toString last) ++ ": " ++
      ", ".intercalate
        ((gone.take 3).map fun p => p.1 ++ "=" ++ Text.clip p.2.value 40 "...") ++
      (if 3 < gone.length then " (+" ++ toString (gone.length - 3) ++ " more)" else "")

theorem tells_compressionLine {gone : List (String × Entry)} (h : gone ≠ []) :
    Tells gone (compressionLine gone) := by
  have hturns : gone.map (·.2.turn) ≠ [] := mt List.map_eq_nil_iff.1 h
  obtain ⟨first, hfirst⟩ := Option.isSome_iff_exists.1 (List.isSome_min?_of_ne_nil hturns)
  obtain ⟨last, hlast⟩ := Option.isSome_iff_exists.1 (List.isSome_max?_of_ne_nil hturns)
  refine ⟨first, last, List.min?_eq_some_iff.1 hfirst, List.max?_eq_some_iff.1 hlast, ?_⟩
  have hspan : turnSpan gone = if first = last then "turn " ++ toString first
      else "turns " ++ toString first ++ "-" ++ toString last := by
    simp only [turnSpan, hfirst, hlast, Option.getD_some]
  rw [← hspan]
  rfl

/-! ### Compressing -/

/-- The entries `gone`, from the lowest to the highest, give way in a table: they are the ones that
are not there any more, and there were just as many too many. The others are as they were. If there
are any, one line tells of them; it is the last one in the log, which drops its oldest lines and
counts them, as long as their number has 64 bits. -/
structure Compresses (limits : DigestLimits) (t : Keyed Entry) (gone : List (String × Entry))
    (before after : Digest) : Prop where
  subset : ∀ q ∈ after.entries.entries, q ∈ t.entries
  size : after.entries.size = min t.size limits.maxEntries
  mem : ∀ p, p ∈ gone ↔ p ∈ t.entries ∧ p ∉ after.entries.entries
  count : gone.length + after.entries.size = t.size
  ranked : gone.Pairwise Below
  below : ∀ p ∈ gone, ∀ q ∈ after.entries.entries, Below p q
  quiet : gone = [] → after.decisionLog = before.decisionLog ∧ after.elided = before.elided
  told : gone ≠ [] → ∃ line lost, Tells gone line ∧
    lost = before.decisionLog.length + 1 - max limits.maxLog 1 ∧
    after.decisionLog = before.decisionLog.drop lost ++ [line] ∧
    (before.elided + lost < 2 ^ 64 → after.elided = before.elided + lost)

theorem mem_victims_iff : p ∈ victims limits d.entries ↔
    p ∈ d.entries.entries ∧ p ∉ (d.compress limits).entries.entries := by
  rw [mem_compress, mem_entries_iff limits]
  constructor
  · exact fun hp => ⟨.inl hp, fun hkept => key_ne_of_mem hp hkept rfl⟩
  · exact fun h => h.1.resolve_right h.2

theorem length_victims : (victims limits t).length = t.size - limits.maxEntries := by
  rw [victims, List.length_take, length_ranked]
  omega

/-- A line that is logged is the last one. -/
theorem log_eq (limits : DigestLimits) (d : Digest) (line : String) :
    (d.log limits line).decisionLog =
      d.decisionLog.drop (d.decisionLog.length + 1 - max limits.maxLog 1) ++ [line] := by
  have hle : d.decisionLog.length + 1 - max limits.maxLog 1 ≤ d.decisionLog.length := by omega
  rw [← List.drop_append_of_le_length hle]
  simp only [log, List.length_append, List.length_singleton]

/-- **Compressing lets the lowest entries give way**, as many as there are too many, and logs one
line for them, if there are any. -/
theorem compress_compresses (limits : DigestLimits) (d : Digest) :
    Compresses limits d.entries (victims limits d.entries) d (d.compress limits) where
  subset q hq := (mem_entries_iff limits).2 (.inr (mem_compress.1 hq))
  size := size_compress limits d
  mem _ := mem_victims_iff
  count := by
    rw [length_victims, size_compress]
    omega
  ranked := (ranked_below d.entries).sublist (List.take_sublist ..)
  below p hp q hq :=
    have hkept := mem_compress.1 hq
    below_of_rankLe (rankLe_of_mem hp hkept) (key_ne_of_mem hp hkept)
  quiet h := by
    have hroom := isEmpty_victims.1 (List.isEmpty_iff.2 h)
    rw [compress, if_pos hroom]
    exact ⟨rfl, rfl⟩
  told h := by
    have hfull : ¬ d.entries.size ≤ limits.maxEntries := fun hroom =>
      h (List.isEmpty_iff.1 (isEmpty_victims.2 hroom))
    refine ⟨_, _, tells_compressionLine h, rfl, ?_⟩
    rw [compress, if_neg hfull]
    refine ⟨log_eq limits _ _, fun _ => ?_⟩
    simp only [log, List.length_append, List.length_singleton]

/-- **Putting facts in writes them in order and lets the lowest entries give way**, as many as there
are too many then. What is under a key then has one more update for every time it was written
(`updates_rewritten`); the updates have 32 bits, and start again behind the largest number of
these. -/
theorem fold_compresses (limits : DigestLimits) (d : Digest) (turn : Nat)
    (facts : List (String × String)) :
    ∃ t gone, (∀ k, t.get? k = rewritten turn (valuesOf k facts) (d.entries.get? k)) ∧
      Compresses limits t gone d (d.fold limits turn facts) := by
  let t := noted turn facts d.entries
  have h := compress_compresses limits { d with entries := t }
  exact ⟨t, victims limits t, get?_noted turn facts d.entries, { h with }⟩

end Digest

end Conductor

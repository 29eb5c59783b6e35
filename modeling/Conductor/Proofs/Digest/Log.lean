import Conductor.Proofs.Digest.Eviction
import Mathlib.Data.List.DropRight

/-!
# What the log of a digest has lost

A digest is written in steps: a line is logged, or facts are put in, and then the entries that give
way leave a line of their own. The log keeps the newest of all these lines and counts the others,
however many steps there are and however small the limits.

* `Digest.Step`, `Digest.after` : what is done to a digest, and what comes of it;
* `Digest.told` : the lines that some steps have added to the log;
* `Digest.Bounded` : the table is within its limit, the log has just the newest lines, and the
  others are counted;
* `Digest.Bounded.apply`, `Digest.bounded_after` : **so it is after every step, and so after all
  steps of a digest that was empty;**
* `Digest.counted_after`, `Digest.length_after_le`, `Digest.size_after_le` : what becomes of any
  other digest.
-/

namespace Conductor

namespace Digest

variable {limits : DigestLimits} {d : Digest}

/-- What can be done to a digest. -/
inductive Step where
  /-- A line is logged. -/
  | log (line : String)
  /-- The facts of a turn are put in. -/
  | fold (turn : Nat) (facts : List (String × String))

namespace Step

/-- The digest after a step. -/
def apply (limits : DigestLimits) (d : Digest) : Step → Digest
  | .log line => d.log limits line
  | .fold turn facts => d.fold limits turn facts

/-- The lines that a step adds to the log of a digest with these entries: the line that is logged,
or the one for the entries that give way, if any do. -/
def lines (limits : DigestLimits) (t : Keyed Entry) : Step → List String
  | .log line => [line]
  | .fold turn facts =>
    let gone := victims limits (noted turn facts t)
    if gone.isEmpty then [] else [compressionLine gone]

end Step

/-- The digest after some steps. -/
def after (limits : DigestLimits) (d : Digest) (steps : List Step) : Digest :=
  steps.foldl (Step.apply limits) d

/-- The lines that some steps add to the log. -/
def told (limits : DigestLimits) : Digest → List Step → List String
  | _, [] => []
  | d, step :: steps => step.lines limits d.entries ++ told limits (step.apply limits d) steps

theorem after_append (limits : DigestLimits) (d : Digest) (steps steps' : List Step) :
    after limits d (steps ++ steps') = after limits (after limits d steps) steps' :=
  List.foldl_append ..

/-! ### Putting facts in -/

section Fold

variable {turn : Nat} {facts : List (String × String)}

theorem isEmpty_victims {t : Keyed Entry} :
    (victims limits t).isEmpty = true ↔ t.size ≤ limits.maxEntries := by
  rw [List.isEmpty_iff_length_eq_zero, victims, List.length_take, length_ranked]
  omega

/-- Facts for which there is room leave the log alone. -/
theorem fold_of_room (h : (noted turn facts d.entries).size ≤ limits.maxEntries) :
    d.fold limits turn facts = { d with entries := noted turn facts d.entries } := by
  exact if_pos h

/-- Otherwise the log gets the line for the entries that give way. -/
theorem fold_of_full (h : ¬ (noted turn facts d.entries).size ≤ limits.maxEntries) :
    ∃ t, d.fold limits turn facts = ({ d with entries := t } : Digest).log limits
      (compressionLine (victims limits (noted turn facts d.entries))) :=
  ⟨_, if_neg h⟩

theorem size_fold_le (limits : DigestLimits) (d : Digest) (turn : Nat)
    (facts : List (String × String)) :
    (d.fold limits turn facts).entries.size ≤ limits.maxEntries := by
  have hsize := size_compress limits { d with entries := noted turn facts d.entries }
  exact Nat.le_trans (Nat.le_of_eq hsize) (Nat.min_le_right ..)

/-- **Putting facts in leaves one line if any entry gives way, and no line if none does.** -/
theorem length_lines_fold (limits : DigestLimits) (d : Digest) (turn : Nat)
    (facts : List (String × String)) :
    ((Step.fold turn facts).lines limits d.entries).length =
      if (d.fold limits turn facts).entries = noted turn facts d.entries then 0 else 1 := by
  simp only [Step.lines, isEmpty_victims]
  by_cases hroom : (noted turn facts d.entries).size ≤ limits.maxEntries
  · rw [if_pos hroom, fold_of_room hroom, if_pos rfl]
    rfl
  · have hchanged : (d.fold limits turn facts).entries ≠ noted turn facts d.entries := by
      intro heq
      rw [← heq] at hroom
      exact hroom (size_fold_le ..)
    rw [if_neg hroom, if_neg hchanged]
    rfl

end Fold

/-! ### A digest that was empty -/

/-- The table is within its limit, the log has the newest of these lines, as many as the limit
allows, and the others are counted. -/
structure Bounded (limits : DigestLimits) (lines : List String) (d : Digest) : Prop where
  size : d.entries.size ≤ limits.maxEntries
  log : d.decisionLog = lines.rtake (min lines.length (max 1 limits.maxLog))
  elided : d.elided = lines.length - d.decisionLog.length

theorem bounded_empty (limits : DigestLimits) : empty.Bounded limits [] where
  size := Nat.zero_le _
  log := rfl
  elided := rfl

namespace Bounded

variable {lines : List String}

/-- The table may be replaced by one that is within the limit. -/
theorem withEntries {t : Keyed Entry} (h : d.Bounded limits lines)
    (ht : t.size ≤ limits.maxEntries) : Bounded limits lines { d with entries := t } where
  size := ht
  log := h.log
  elided := h.elided

/-- The log is what is left of the lines when the oldest ones are dropped. -/
theorem log_eq_drop (h : d.Bounded limits lines) :
    d.decisionLog = lines.drop (lines.length - max 1 limits.maxLog) := by
  have hcount : lines.length - min lines.length (max 1 limits.maxLog) =
      lines.length - max 1 limits.maxLog := by omega
  rw [h.log, List.rtake, hcount]

/-- **One more line is logged.** -/
theorem logged (h : d.Bounded limits lines) (line : String) :
    (d.log limits line).Bounded limits (lines ++ [line]) := by
  have hbefore := h.log_eq_drop
  have hlength : d.decisionLog.length = lines.length - (lines.length - max 1 limits.maxLog) := by
    rw [hbefore, List.length_drop]
  have hafter : (d.log limits line).decisionLog =
      (lines ++ [line]).drop ((lines ++ [line]).length - max 1 limits.maxLog) := by
    have hall : d.decisionLog ++ [line] =
        (lines ++ [line]).drop (lines.length - max 1 limits.maxLog) := by
      rw [hbefore, List.drop_append_of_le_length (Nat.sub_le ..)]
    have hcount : lines.length - max 1 limits.maxLog +
        ((d.decisionLog ++ [line]).length - max limits.maxLog 1) =
          (lines ++ [line]).length - max 1 limits.maxLog := by
      simp only [List.length_append, List.length_singleton]
      omega
    rw [← hcount, ← List.drop_drop, ← hall]
    rfl
  refine ⟨h.size, ?_, ?_⟩
  · rw [hafter, List.rtake]
    congr 1
    omega
  · -- no line is lost without being counted
    have hcounted : (d.log limits line).decisionLog.length + (d.log limits line).elided =
        d.decisionLog.length + d.elided + 1 := lines_log line
    have helided := h.elided
    rw [List.length_append, List.length_singleton]
    omega

/-- **After a step the lines are those from before and those of the step.** -/
theorem apply (h : d.Bounded limits lines) (step : Step) :
    (step.apply limits d).Bounded limits (lines ++ step.lines limits d.entries) := by
  cases step with
  | log line => exact h.logged line
  | fold turn facts =>
    have hsize := size_fold_le limits d turn facts
    simp only [Step.apply, Step.lines, isEmpty_victims]
    by_cases hroom : (noted turn facts d.entries).size ≤ limits.maxEntries
    · rw [if_pos hroom, List.append_nil, fold_of_room hroom]
      exact h.withEntries hroom
    · obtain ⟨t, hfold⟩ := fold_of_full hroom
      rw [hfold] at hsize
      rw [if_neg hroom, hfold]
      exact (h.withEntries hsize).logged _

end Bounded

/-- **A digest that was empty is within its limits after all steps, and its log has lost no line that
is not counted.** -/
theorem bounded_after (limits : DigestLimits) (steps : List Step) :
    (after limits empty steps).Bounded limits (told limits empty steps) := by
  suffices h : ∀ lines d, Bounded limits lines d →
      (after limits d steps).Bounded limits (lines ++ told limits d steps) from
    h [] empty (bounded_empty limits)
  induction steps with
  | nil =>
    intro lines d hd
    rw [told, List.append_nil]
    exact hd
  | cons step steps ih =>
    intro lines d hd
    rw [told, ← List.append_assoc]
    exact ih _ _ (hd.apply step)

/-! ### Any other digest -/

theorem length_log_le (limits : DigestLimits) (d : Digest) (line : String) :
    (d.log limits line).decisionLog.length ≤ max 1 limits.maxLog := by
  simp only [log, List.length_drop]
  omega

/-- Every line that a step adds is kept or counted. -/
theorem counted_apply (limits : DigestLimits) (d : Digest) (step : Step) :
    (step.apply limits d).decisionLog.length + (step.apply limits d).elided =
      d.decisionLog.length + d.elided + (step.lines limits d.entries).length := by
  cases step with
  | log line => exact lines_log line
  | fold turn facts =>
    simp only [Step.apply, Step.lines, isEmpty_victims]
    by_cases hroom : (noted turn facts d.entries).size ≤ limits.maxEntries
    · rw [if_pos hroom, fold_of_room hroom]
      rfl
    · obtain ⟨t, hfold⟩ := fold_of_full hroom
      rw [if_neg hroom, hfold]
      exact lines_log _

/-- **Every line that some steps add is kept or counted**, whatever the digest was. -/
theorem counted_after (limits : DigestLimits) (d : Digest) (steps : List Step) :
    (after limits d steps).decisionLog.length + (after limits d steps).elided =
      d.decisionLog.length + d.elided + (told limits d steps).length := by
  induction steps generalizing d with
  | nil => rfl
  | cons step steps ih =>
    have hstep := counted_apply limits d step
    have hrest := ih (step.apply limits d)
    rw [told, List.length_append]
    change (after limits (step.apply limits d) steps).decisionLog.length +
      (after limits (step.apply limits d) steps).elided = _
    omega

theorem length_apply_le (h : d.decisionLog.length ≤ max 1 limits.maxLog) (step : Step) :
    (step.apply limits d).decisionLog.length ≤ max 1 limits.maxLog := by
  cases step with
  | log line => exact length_log_le limits d line
  | fold turn facts =>
    by_cases hroom : (noted turn facts d.entries).size ≤ limits.maxEntries
    · rw [Step.apply, fold_of_room hroom]
      exact h
    · obtain ⟨t, hfold⟩ := fold_of_full hroom
      rw [Step.apply, hfold]
      exact length_log_le ..

theorem size_apply_le (h : d.entries.size ≤ limits.maxEntries) (step : Step) :
    (step.apply limits d).entries.size ≤ limits.maxEntries := by
  cases step with
  | log line => exact h
  | fold turn facts => exact size_fold_le limits d turn facts

/-- **The log is short once a line was logged.** -/
theorem length_after_le {steps : List Step} {line : String} (h : .log line ∈ steps) :
    (after limits d steps).decisionLog.length ≤ max 1 limits.maxLog := by
  obtain ⟨before, rest, rfl⟩ := List.mem_iff_append.1 h
  rw [after_append]
  exact List.foldlRecOn rest _
    (motive := fun d : Digest => d.decisionLog.length ≤ max 1 limits.maxLog)
    (length_log_le ..) fun d hd step _ => length_apply_le hd step

/-- **The table is small once facts were put in.** -/
theorem size_after_le {steps : List Step} {turn : Nat} {facts : List (String × String)}
    (h : .fold turn facts ∈ steps) :
    (after limits d steps).entries.size ≤ limits.maxEntries := by
  obtain ⟨before, rest, rfl⟩ := List.mem_iff_append.1 h
  rw [after_append]
  exact List.foldlRecOn rest _ (motive := fun d : Digest => d.entries.size ≤ limits.maxEntries)
    (size_fold_le ..) fun d hd step _ => size_apply_le hd step

end Digest

end Conductor

import Conductor.Proofs.Digest
import Mathlib.Data.List.Nodup
import Mathlib.Data.List.Perm.Subperm

/-!
# Which entries give way

A table of facts that has grown too large loses its lowest entries: first those of the oldest turn,
among these the ones that were written least often, among these the first ones by key. Compressing
sorts the entries, takes the lowest ones away and leaves the others as they are.

* `Digest.noted` : a table after some facts were written into it;
* `Digest.victims_append_kept` : an entry gives way or stays;
* `Digest.mem_compress`, `Digest.size_compress` : **compressing leaves just the entries that stay, as
  many as the limit allows;**
* `Digest.rankLe_of_mem` : **what gives way ranks below all that stays;**
* `Digest.fold_spec` : so it is when facts are put in;
* `Digest.get?_fold_of_newest` : **the facts of a new turn stay, if there is room for them alone.**
-/

namespace Conductor

namespace Digest

variable {limits : DigestLimits} {d : Digest} {t : Keyed Entry} {p q : String × Entry}

/-! ### The rank -/

theorem rankLe_iff : rankLe p q = true ↔ p.2.turn < q.2.turn ∨ (p.2.turn = q.2.turn ∧
    (p.2.updates < q.2.updates ∨ (p.2.updates = q.2.updates ∧ p.1 ≤ q.1))) := by
  simp [rankLe]

theorem rankLe_trans (p q r : String × Entry) (hpq : rankLe p q = true)
    (hqr : rankLe q r = true) : rankLe p r = true := by
  rw [rankLe_iff] at hpq hqr ⊢
  rcases hpq with hpq | ⟨hturn, hpq⟩
  · omega
  · rcases hqr with hqr | ⟨hturn', hqr⟩
    · omega
    · refine .inr ⟨hturn.trans hturn', ?_⟩
      rcases hpq with hpq | ⟨hupdates, hpq⟩
      · omega
      · rcases hqr with hqr | ⟨hupdates', hqr⟩
        · omega
        · exact .inr ⟨hupdates.trans hupdates', String.le_trans hpq hqr⟩

theorem rankLe_total (p q : String × Entry) : (rankLe p q || rankLe q p) = true := by
  rw [Bool.or_eq_true, rankLe_iff, rankLe_iff]
  have hkeys := String.le_total p.1 q.1
  by_cases hturn : p.2.turn = q.2.turn
  · by_cases hupdates : p.2.updates = q.2.updates
    · rcases hkeys with hkeys | hkeys
      · exact .inl (.inr ⟨hturn, .inr ⟨hupdates, hkeys⟩⟩)
      · exact .inr (.inr ⟨hturn.symm, .inr ⟨hupdates.symm, hkeys⟩⟩)
    · rcases Nat.lt_or_gt_of_ne hupdates with h | h
      · exact .inl (.inr ⟨hturn, .inl h⟩)
      · exact .inr (.inr ⟨hturn.symm, .inl h⟩)
  · rcases Nat.lt_or_gt_of_ne hturn with h | h
    · exact .inl (.inl h)
    · exact .inr (.inl h)

/-- An entry that ranks below another one is not from a later turn. -/
theorem turn_le_of_rankLe (h : rankLe p q = true) : p.2.turn ≤ q.2.turn := by
  rw [rankLe_iff] at h
  omega

/-! ### What gives way and what stays -/

theorem ranked_perm (t : Keyed Entry) : (ranked t).Perm t.entries := List.mergeSort_perm _ _

theorem ranked_pairwise (t : Keyed Entry) :
    (ranked t).Pairwise fun p q => rankLe p q = true :=
  List.pairwise_mergeSort rankLe_trans rankLe_total t.entries

theorem length_ranked (t : Keyed Entry) : (ranked t).length = t.size := (ranked_perm t).length_eq

/-- The keys of the table, from the lowest entry to the highest. -/
theorem nodup_ranked_keys (t : Keyed Entry) : ((ranked t).map (·.1)).Nodup := by
  refine ((ranked_perm t).map (·.1)).nodup_iff.2 ?_
  rw [List.Nodup, List.pairwise_map]
  exact t.ordered.imp String.ne_of_lt

/-- The entries that stay when the table is brought within the limit. -/
def kept (limits : DigestLimits) (t : Keyed Entry) : List (String × Entry) :=
  (ranked t).drop (t.size - limits.maxEntries)

/-- **An entry gives way or stays.** -/
theorem victims_append_kept (limits : DigestLimits) (t : Keyed Entry) :
    victims limits t ++ kept limits t = ranked t := List.take_append_drop ..

/-- **What gives way ranks below all that stays.** -/
theorem rankLe_of_mem (hp : p ∈ victims limits t) (hq : q ∈ kept limits t) :
    rankLe p q = true := by
  have hpairwise := ranked_pairwise t
  rw [← victims_append_kept limits t] at hpairwise
  exact (List.pairwise_append.1 hpairwise).2.2 p hp q hq

theorem mem_entries_iff (limits : DigestLimits) :
    p ∈ t.entries ↔ p ∈ victims limits t ∨ p ∈ kept limits t := by
  rw [← (ranked_perm t).mem_iff, ← victims_append_kept limits t, List.mem_append]

theorem length_kept : (kept limits t).length = min t.size limits.maxEntries := by
  rw [kept, List.length_drop, length_ranked]
  omega

/-- What gives way has another key than all that stays. -/
theorem nodup_victim_kept (hp : p ∈ victims limits t) :
    (p.1 :: (kept limits t).map (·.1)).Nodup := by
  have hsublist : (p :: kept limits t).Sublist (ranked t) := by
    rw [← victims_append_kept limits t]
    exact (List.singleton_sublist.2 hp).append (List.Sublist.refl _)
  exact (nodup_ranked_keys t).sublist (hsublist.map Prod.fst)

theorem key_ne_of_mem (hp : p ∈ victims limits t) (hq : q ∈ kept limits t) : p.1 ≠ q.1 := by
  intro heq
  have hno := (List.nodup_cons.1 (nodup_victim_kept hp)).1
  rw [heq] at hno
  exact hno (List.mem_map_of_mem hq)

/-- If anything gives way, what stays fills the table up to the limit. -/
theorem length_kept_of_mem (hp : p ∈ victims limits t) :
    (kept limits t).length = limits.maxEntries := by
  have hsome := List.length_pos_of_mem hp
  rw [victims, List.length_take, length_ranked] at hsome
  rw [length_kept]
  omega

/-! ### Compressing -/

/-- **Compressing leaves the entries that stay.** -/
theorem mem_compress : p ∈ (d.compress limits).entries.entries ↔ p ∈ kept limits d.entries := by
  unfold compress
  split
  · -- there is room for all of them
    rename_i hroom
    rw [kept, Nat.sub_eq_zero_of_le hroom, List.drop_zero, (ranked_perm d.entries).mem_iff]
  · change p ∈ d.entries.entries.filter _ ↔ _
    rw [List.mem_filter, mem_entries_iff limits]
    constructor
    · rintro ⟨hp | hp, hstays⟩
      · simp [List.mem_map_of_mem (f := Prod.fst) hp] at hstays
      · exact hp
    · intro hp
      have hstays : p.1 ∉ (victims limits d.entries).map (·.1) := by
        intro hvictim
        obtain ⟨q, hq, heq⟩ := List.mem_map.1 hvictim
        exact key_ne_of_mem hq hp heq
      exact ⟨.inr hp, by simpa using hstays⟩

theorem perm_compress (limits : DigestLimits) (d : Digest) :
    (d.compress limits).entries.entries.Perm (kept limits d.entries) := by
  have hranked (t : Keyed Entry) : (ranked t).Nodup :=
    List.Nodup.of_map Prod.fst (nodup_ranked_keys t)
  have hkept : (kept limits d.entries).Nodup := (hranked _).sublist (List.drop_sublist ..)
  have hcompressed : (d.compress limits).entries.entries.Nodup :=
    (ranked_perm _).nodup_iff.1 (hranked _)
  exact (List.perm_ext_iff_of_nodup hcompressed hkept).2 fun p => mem_compress

/-- **After compressing there are as many entries as the limit allows.** -/
theorem size_compress (limits : DigestLimits) (d : Digest) :
    (d.compress limits).entries.size = min d.entries.size limits.maxEntries :=
  (perm_compress limits d).length_eq.trans length_kept

/-! ### Writing facts -/

/-- The table after some facts were written into it. -/
def noted (turn : Nat) (facts : List (String × String)) (t : Keyed Entry) : Keyed Entry :=
  facts.foldl (upsert turn) t

variable {turn : Nat} {facts : List (String × String)} {k v : String}

theorem get?_noted_of_notMem (h : k ∉ facts.map (·.1)) :
    (noted turn facts t).get? k = t.get? k := by
  induction facts generalizing t with
  | nil => rfl
  | cons fact facts ih =>
    obtain ⟨hne, hrest⟩ := not_or.1 (mt List.mem_cons.2 h)
    exact (ih hrest).trans (t.get?_insert_of_ne hne)

/-- A fact that is written under a key of its own updates the entry there. -/
theorem get?_noted_eq_written (hkeys : (facts.map (·.1)).Nodup) (h : (k, v) ∈ facts) :
    (noted turn facts t).get? k = some (written (t.get? k) turn v) := by
  induction facts generalizing t with
  | nil => cases h
  | cons fact facts ih =>
    obtain ⟨hfact, hrest⟩ := List.nodup_cons.1 hkeys
    rcases List.mem_cons.1 h with rfl | h
    · exact (get?_noted_of_notMem hfact).trans t.get?_insert_self
    · have hkey : k ∈ facts.map (·.1) := List.mem_map_of_mem (f := Prod.fst) h
      have hne : k ≠ fact.1 := ne_of_mem_of_not_mem hkey hfact
      refine (ih hrest h).trans ?_
      rw [upsert, t.get?_insert_of_ne hne]

/-- A fact that is written under a key of its own is found there. -/
theorem get?_noted_of_mem (t : Keyed Entry) (turn : Nat) (hkeys : (facts.map (·.1)).Nodup)
    (h : (k, v) ∈ facts) :
    ∃ e, (noted turn facts t).get? k = some e ∧ e.value = v ∧ e.turn = turn := by
  refine ⟨written (t.get? k) turn v, get?_noted_eq_written hkeys h, ?_⟩
  cases t.get? k <;> exact ⟨rfl, rfl⟩

/-- An entry that is not of a fact was there before. -/
theorem mem_of_mem_noted (hp : p ∈ (noted turn facts t).entries)
    (hnew : p.1 ∉ facts.map (·.1)) : p ∈ t.entries := by
  have hget := Keyed.get?_of_mem (k := p.1) (a := p.2) hp
  rw [get?_noted_of_notMem hnew] at hget
  exact Keyed.mem_of_get? hget

/-- **Putting facts in leaves what stays of the table that they were written into**, and what does
not stay ranks below all that does. -/
theorem fold_spec (limits : DigestLimits) (d : Digest) (turn : Nat)
    (facts : List (String × String)) :
    (d.fold limits turn facts).entries.size =
      min (noted turn facts d.entries).size limits.maxEntries ∧
    (∀ q ∈ (d.fold limits turn facts).entries.entries,
      q ∈ (noted turn facts d.entries).entries) ∧
    ∀ p ∈ (noted turn facts d.entries).entries,
      p ∉ (d.fold limits turn facts).entries.entries →
      ∀ q ∈ (d.fold limits turn facts).entries.entries, rankLe p q = true := by
  refine ⟨size_compress limits _, fun q hq => ?_, fun p hp hgone q hq => ?_⟩
  · exact (mem_entries_iff limits).2 (.inr (mem_compress.1 hq))
  · rcases (mem_entries_iff limits).1 hp with hvictim | hkept
    · exact rankLe_of_mem hvictim (mem_compress.1 hq)
    · exact absurd (mem_compress.2 hkept) hgone

/-- **The facts of a new turn stay, if there is room for them alone**: all entries from before give
way first. -/
theorem get?_fold_of_newest (hold : ∀ p ∈ d.entries.entries, p.2.turn < turn)
    (hkeys : (facts.map (·.1)).Nodup) (hroom : facts.length ≤ limits.maxEntries)
    (h : (k, v) ∈ facts) : (d.fold limits turn facts).get? k = some v := by
  set u := noted turn facts d.entries with hu
  obtain ⟨e, hget, rfl, hturn⟩ := get?_noted_of_mem d.entries turn hkeys h
  have hstays : (k, e) ∈ kept limits u := by
    rcases (mem_entries_iff limits).1 (Keyed.mem_of_get? hget) with hvictim | hkept
    · exfalso
      -- everything that stays would be from the new turn as well, and so under a key of a fact
      have hnew : ∀ q ∈ kept limits u, q.1 ∈ facts.map (·.1) := by
        intro q hq
        by_contra hno
        have hbefore := hold q (mem_of_mem_noted ((mem_entries_iff limits).2 (.inr hq)) hno)
        have hrank := turn_le_of_rankLe (rankLe_of_mem hvictim hq)
        rw [hturn] at hrank
        omega
      have hsubset : k :: (kept limits u).map (·.1) ⊆ facts.map (·.1) := by
        intro key hkey
        rcases List.mem_cons.1 hkey with rfl | hkey
        · exact List.mem_map_of_mem (f := Prod.fst) h
        · obtain ⟨q, hq, rfl⟩ := List.mem_map.1 hkey
          exact hnew q hq
      have hmany := (List.subperm_of_subset (nodup_victim_kept hvictim) hsubset).length_le
      rw [List.length_cons, List.length_map, List.length_map, length_kept_of_mem hvictim] at hmany
      omega
    · exact hkept
  have hafter : (k, e) ∈ (d.fold limits turn facts).entries.entries := mem_compress.2 hstays
  rw [Digest.get?, Keyed.get?_of_mem hafter]
  rfl

end Digest

end Conductor

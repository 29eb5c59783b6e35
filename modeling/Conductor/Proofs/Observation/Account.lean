import Conductor.Proofs.Observation.Bounds
import Conductor.Proofs.Observation.Names

/-!
# What the facts account for

The facts of a result are a table: two facts of one name are one entry of it, and the mark that
counts what is left out is an entry too. So it depends on the names whether every leaf of an output
is a fact or counted, and whether a failure shows its own code.

* `Normalizer.shownCount`, `Normalizer.omitted` : how many facts are shown, how many left out;
* `Normalizer.Apart` : the facts that are shown have names of their own;
* `Normalizer.apart_of_plain` : those of an output with plain keys have;
* `Normalizer.leaves_accounted` : **the leaves of an output are all accounted for just if the facts
  are apart;**
* `Normalizer.HasRoom` : the code of a failure is among the facts that are shown;
* `Normalizer.code_shown` : **a failure shows its own code just if there is room for it; otherwise
  the table has only what the output says under that name.**
-/

namespace Conductor

namespace Normalizer

variable {n : Normalizer} {limits : ObservationLimits} {fallbacks : Keyed String} {tool : String}
  {raw : Json} {r : Result}

/-! ### Facts that are shown -/

/-- How many of so many facts are shown. Where not all are, one place is kept for the mark. -/
def shownCount (n : Normalizer) (total : Nat) : Nat :=
  if max 1 n.limits.maxFacts < total then max 1 n.limits.maxFacts - 1 else total

/-- How many facts are left out. -/
def omitted (n : Normalizer) (raw : Json) (r : Result) : Nat :=
  (allFacts raw r).length - n.shownCount (allFacts raw r).length

/-- The mark for facts that are left out. -/
def omittedText (count : Nat) : String := toString count ++ " more fact(s) omitted"

/-- The facts without the mark, if there is one. -/
def unmarked (n : Normalizer) (raw : Json) (r : Result) : Keyed String :=
  if 0 < n.omitted raw r then (n.facts raw r).erase omittedKey else n.facts raw r

/-- The facts that are shown, each one cut. -/
def shownFacts (n : Normalizer) (raw : Json) (r : Result) : List (String × String) :=
  ((allFacts raw r).take (n.shownCount (allFacts raw r).length)).map
    fun f => (f.1, n.cap f.2 n.limits.factChars)

/-- The names of the facts that are shown. -/
def shownNames (n : Normalizer) (raw : Json) (r : Result) : List String :=
  Json.names (n.shownFacts raw r)

/-- The facts that are shown have names of their own, and none has that of the mark where it
stands. -/
def Apart (n : Normalizer) (raw : Json) (r : Result) : Prop :=
  (n.shownNames raw r).Nodup ∧ (0 < n.omitted raw r → omittedKey ∉ n.shownNames raw r)

theorem shownCount_le (n : Normalizer) (total : Nat) : n.shownCount total ≤ total := by
  unfold shownCount
  split <;> omega

theorem length_shownFacts :
    (n.shownFacts raw r).length = n.shownCount (allFacts raw r).length := by
  rw [shownFacts, List.length_map, List.length_take, Nat.min_eq_left (n.shownCount_le _)]

theorem shownNames_eq : n.shownNames raw r =
    Json.names ((allFacts raw r).take (n.shownCount (allFacts raw r).length)) := List.map_map ..

theorem shownCount_add_omitted :
    n.shownCount (allFacts raw r).length + n.omitted raw r = (allFacts raw r).length :=
  Nat.add_sub_of_le (n.shownCount_le _)

/-- The facts are the first ones, and the mark where it is due. -/
theorem facts_eq (n : Normalizer) (raw : Json) (r : Result) :
    n.facts raw r =
      if 0 < n.omitted raw r then
        (Keyed.ofList (n.shownFacts raw r)).insert omittedKey (omittedText (n.omitted raw r))
      else .ofList (n.shownFacts raw r) := by
  by_cases hlong : max 1 n.limits.maxFacts < (allFacts raw r).length
  · have hcount : n.shownCount (allFacts raw r).length = max 1 n.limits.maxFacts - 1 := if_pos hlong
    have hpos : 0 < n.omitted raw r := by
      rw [omitted, hcount]
      omega
    rw [if_pos hpos, n.facts_of_lt hlong, omitted, shownFacts, hcount]
    rfl
  · have hcount : n.shownCount (allFacts raw r).length = (allFacts raw r).length := if_neg hlong
    have hzero : ¬ 0 < n.omitted raw r := by
      rw [omitted, hcount]
      omega
    rw [if_neg hzero, n.facts_of_le (Nat.le_of_not_lt hlong), shownFacts, hcount]
    rfl

/-- The name of a fact that is not the mark is looked up among the facts that are shown. -/
theorem get?_facts_of_ne {k : String} (hk : k ≠ omittedKey) :
    (n.facts raw r).get? k = (n.shownFacts raw r).reverse.lookup k := by
  rw [← Keyed.get?_ofList, facts_eq]
  split
  · exact Keyed.get?_insert_of_ne _ hk
  · rfl

theorem unmarked_eq (n : Normalizer) (raw : Json) (r : Result) :
    n.unmarked raw r =
      if 0 < n.omitted raw r then (Keyed.ofList (n.shownFacts raw r)).erase omittedKey
      else .ofList (n.shownFacts raw r) := by
  rw [unmarked, facts_eq]
  split
  · exact Keyed.erase_insert_self _
  · rfl

theorem size_unmarked_le : (n.unmarked raw r).size ≤ n.shownCount (allFacts raw r).length := by
  have hshown := Keyed.size_ofList_le (n.shownFacts raw r)
  rw [length_shownFacts] at hshown
  rw [unmarked_eq]
  split
  · exact Nat.le_trans (List.length_filter_le ..) hshown
  · exact hshown

/-- **No fact that is shown is lost in the table just if the facts are apart.** -/
theorem size_unmarked_eq_iff :
    (n.unmarked raw r).size = n.shownCount (allFacts raw r).length ↔ n.Apart raw r := by
  rw [unmarked_eq, ← length_shownFacts, Apart]
  split
  · next hpos =>
    rw [Keyed.size_erase_ofList_eq_iff]
    exact and_congr_right fun _ => ⟨fun h _ => h, fun h => h hpos⟩
  · next hzero =>
    rw [Keyed.size_ofList_eq_iff]
    exact ⟨fun h => ⟨h, fun hpos => absurd hpos hzero⟩, And.left⟩

/-! ### Outputs -/

theorem allFacts_of_ok (hok : r.ok = true) : allFacts raw r = raw.leaves := by
  rw [allFacts, hok]
  exact List.append_nil _

/-- The name of the mark is that of a leaf only where the output has it as a key. -/
theorem isSome_get?_of_mem_names {j : Json} (hplain : j.Plain)
    (h : omittedKey ∈ Json.names j.leaves) : (j.get? omittedKey).isSome = true := by
  obtain ⟨f, hf, hname⟩ := List.mem_map.1 h
  have hf := Json.mem_leaves.1 hf
  have hmark : Json.PlainKey omittedKey := by decide
  -- nothing leads to the whole value, so that a leaf without a path has another name
  have hleaf (hj : j.isLeaf = true) : False := by
    have hvalue : Json.leafName "" ≠ omittedKey := by decide
    rw [(Json.leafFrom_leaf hj).1 hf] at hname
    exact hvalue hname
  cases j with
  | object ms =>
    cases ms with
    | nil => exact (hleaf rfl).elim
    | cons m ms =>
      obtain ⟨p, hp, hf⟩ := Json.leafFrom_object.1 hf
      obtain ⟨hkey, hvalue⟩ := Json.plainMembers_iff.1 hplain p hp
      have hext := Json.extends_of_leafFrom hvalue (Json.memberPath_ne_empty hkey) hf
      rw [hname] at hext
      have hp' : p.1 = omittedKey := hext.key_unique hkey hmark (Json.Extends.refl _)
      exact List.lookup_isSome_iff.2 ⟨p, hp, by simp [hp']⟩
  | array xs =>
    cases xs with
    | nil => exact (hleaf rfl).elim
    | cons x xs =>
      obtain ⟨i, z, hz, hf⟩ := Json.leafFrom_array.1 hf
      have hvalue := Json.plainItems_iff.1 hplain z (List.mem_of_getElem? hz)
      obtain ⟨rest, hchars, -⟩ := Json.extends_of_leafFrom hvalue Json.itemPath_ne_empty hf
      rw [hname, Json.toList_itemPath] at hchars
      exact absurd (List.cons.inj hchars).1 (by decide)
  | _ => exact (hleaf rfl).elim

/-- **The leaves of an output with plain keys are apart.** -/
theorem apart_of_plain (hok : r.ok = true) (hord : raw.Ordered) (hplain : raw.Plain)
    (hmark : 0 < n.omitted raw r → raw.get? omittedKey = none) : n.Apart raw r := by
  have hsub : (n.shownNames raw r).Sublist (Json.names raw.leaves) := by
    rw [shownNames_eq, allFacts_of_ok hok]
    exact (List.take_sublist ..).map _
  refine ⟨(Json.nodup_leafNames hord hplain).sublist hsub, fun hpos hmem => ?_⟩
  have hsome := isSome_get?_of_mem_names hplain (hsub.subset hmem)
  rw [hmark hpos] at hsome
  cases hsome

/-- What an observation of an output accounts for. -/
structure Accounts (n : Normalizer) (raw : Json) (r : Result) (facts : Keyed String) : Prop where
  /-- Facts are left out just if there are more leaves than the limits allow. -/
  omitted_pos_iff : 0 < n.omitted raw r ↔ max 1 n.limits.maxFacts < raw.leafCount
  /-- The number of those that are left out is among the facts. -/
  marked : 0 < n.omitted raw r → facts.get? omittedKey = some (omittedText (n.omitted raw r))
  /-- Nothing is counted twice. -/
  le : (n.unmarked raw r).size + n.omitted raw r ≤ raw.leafCount
  /-- Every leaf is a fact or counted just if the facts are apart. -/
  total_iff : (n.unmarked raw r).size + n.omitted raw r = raw.leafCount ↔ n.Apart raw r
  /-- Every leaf is a fact or counted where all keys are plain and none is that of the mark. -/
  plain : raw.Ordered → raw.Plain → (0 < n.omitted raw r → raw.get? omittedKey = none) →
    (n.unmarked raw r).size + n.omitted raw r = raw.leafCount

/-- **The leaves of an output are all accounted for just if the facts are apart.** -/
theorem leaves_accounted (n : Normalizer) (tool : String) (raw : Json) (r : Result)
    (hok : r.ok = true) : n.Accounts raw r (n.observe tool raw r).facts := by
  have hcount : n.shownCount (allFacts raw r).length + n.omitted raw r = raw.leafCount := by
    rw [shownCount_add_omitted, allFacts_of_ok hok, Json.length_leaves]
  have htotal : (n.unmarked raw r).size + n.omitted raw r = raw.leafCount ↔ n.Apart raw r := by
    rw [← hcount, Nat.add_right_cancel_iff, size_unmarked_eq_iff]
  refine ⟨?_, fun hpos => ?_, ?_, htotal, fun hord hplain hmark =>
    htotal.2 (apart_of_plain hok hord hplain hmark)⟩
  · rw [omitted, allFacts_of_ok hok, Json.length_leaves, shownCount]
    split <;> omega
  · change (n.facts raw r).get? omittedKey = _
    rw [facts_eq, if_pos hpos, Keyed.get?_insert_self]
  · rw [← hcount]
    exact Nat.add_le_add_right size_unmarked_le _

/-- A page with three leaves, of which one is shown. -/
theorem leaves_accounted_page :
    let n := plain ⟨200, 2, 120⟩ .empty
    let page : Json := .object
      [("items", .array [.object [("id", .nat 1)], .object []]), ("total", .nat 2)]
    let r := Result.success ⟨"search", .emptyObject⟩ 1 page
    r.ok = true ∧ n.omitted page r = 2 ∧
      (n.observe "search" page r).facts.get? omittedKey = some "2 more fact(s) omitted" ∧
      (n.unmarked page r).size + n.omitted page r = page.leafCount := by
  intro n page r
  have haccounts := leaves_accounted n "search" page r rfl
  have homitted : n.omitted page r = 2 := by decide
  refine ⟨rfl, homitted, ?_, haccounts.plain ?_ ?_ ?_⟩
  · rw [haccounts.marked (by rw [homitted]; decide), homitted]
    rfl
  · have hkeys : ["items", "total"].Pairwise (· < ·) := by decide
    exact ⟨List.pairwise_map.1 hkeys, ⟨⟨List.pairwise_singleton _ _, trivial, trivial⟩,
      ⟨.nil, trivial⟩, trivial⟩, trivial, trivial⟩
  · simp [page, Json.Plain, Json.PlainMembers, Json.PlainItems, Json.PlainKey, Json.opensStep,
      Json.nat]
  · intro _
    rfl

/-- A key with a full stop hides the leaf that is reached in two steps. -/
theorem dotted_key_hides_leaf :
    ¬ ∀ (n : Normalizer) (raw : Json) (r : Result), r.ok = true → raw.Ordered →
      (n.unmarked raw r).size + n.omitted raw r = raw.leafCount := by
  intro h
  let raw : Json := .object [("a", .object [("b", .nat 1)]), ("a.b", .nat 2)]
  let r := Result.success ⟨"search", .emptyObject⟩ 1 raw
  have hkeys : ["a", "a.b"].Pairwise (· < ·) := by decide
  have hord : raw.Ordered := ⟨List.pairwise_map.1 hkeys,
    ⟨List.pairwise_singleton _ _, trivial, trivial⟩, trivial, trivial⟩
  have hcount := h (plain .standard .empty) raw r rfl hord
  have hsize : (((plain .standard .empty).unmarked raw r).size +
      (plain .standard .empty).omitted raw r) ≠ raw.leafCount := by decide
  exact hsize hcount

/-! ### Failures -/

/-- The leaves that are shown of the output that came with a failure. -/
def failureLeaves (raw : Json) : List (String × String) := if raw.isNull then [] else raw.leaves

/-- The code of a failure is among the facts that are shown: all of them are, or it is in time. -/
def HasRoom (limits : ObservationLimits) (raw : Json) (r : Result) : Prop :=
  (failureLeaves raw).length + (failureFacts r).length ≤ limits.maxFacts ∨
    (failureLeaves raw).length + 1 < limits.maxFacts

instance : Decidable (HasRoom limits raw r) := inferInstanceAs (Decidable (_ ∨ _))

theorem allFacts_of_failed (hfailed : r.ok = false) :
    allFacts raw r = failureLeaves raw ++ failureFacts r := by
  rw [allFacts, failureLeaves, hfailed]
  cases raw.isNull <;> rfl

theorem length_failureFacts_pos : 0 < (failureFacts r).length := Nat.succ_pos _

theorem length_failureFacts_le : (failureFacts r).length ≤ 3 := by
  unfold failureFacts
  cases r.detail <;> split <;> simp

/-- Without an output there is room for the code. -/
theorem hasRoom_null (h : 4 ≤ limits.maxFacts) : HasRoom limits .null r := by
  have hfacts := length_failureFacts_le (r := r)
  exact .inl (Nat.le_trans (Nat.le_of_eq (Nat.zero_add _)) (Nat.le_trans hfacts (by omega)))

theorem hasRoom_iff (hpos : 0 < n.limits.maxFacts) (hfailed : r.ok = false) :
    HasRoom n.limits raw r ↔
      (failureLeaves raw).length < n.shownCount (allFacts raw r).length := by
  have hcode := length_failureFacts_pos (r := r)
  rw [HasRoom, shownCount, allFacts_of_failed hfailed, List.length_append]
  split <;> omega

/-- What is said of a failure first is its code, and nothing behind has this name. -/
theorem lookup_take_failureFacts (count : Nat) :
    ((failureFacts r).take (count + 1)).reverse.lookup "error_code" = some r.code.name := by
  have hdetail : "error_detail" ≠ "error_code" := by decide
  have hmissing : "missing_fields" ≠ "error_code" := by decide
  have hnone : ∀ f ∈ (failureFacts r).tail, f.1 ≠ "error_code" := by
    simp only [failureFacts, List.tail_cons, List.mem_append]
    rintro f (hf | hf)
    · obtain ⟨d, -, rfl⟩ := Option.map_eq_some_iff.1 (Option.mem_toList.1 hf)
      exact hdetail
    · split at hf
      · cases hf
      · obtain rfl := List.mem_singleton.1 hf
        exact hmissing
  have hbehind : ((failureFacts r).tail.take count).reverse.lookup "error_code" = none :=
    List.lookup_eq_none_iff.2 fun f hf =>
      bne_iff_ne.2 (hnone f (List.mem_of_mem_take (List.mem_reverse.1 hf))).symm
  have hsplit : (failureFacts r).take (count + 1) =
      ("error_code", r.code.name) :: (failureFacts r).tail.take count := rfl
  rw [hsplit, List.reverse_cons, List.lookup_append, hbehind, Option.none_or,
    List.lookup_cons_self]

/-- The last one of the facts of a name is looked up, cut. -/
theorem get?_facts_eq_map {k : String} (hk : k ≠ omittedKey) :
    (n.facts raw r).get? k =
      (((allFacts raw r).take (n.shownCount (allFacts raw r).length)).reverse.lookup k).map
        fun text => n.cap text n.limits.factChars := by
  rw [get?_facts_of_ne hk, shownFacts, ← List.map_reverse]
  exact lookup_map (n.cap · n.limits.factChars)

/-- A text that is not too long is not cut. -/
theorem cap_of_length_le (hn : n.limiter = Text.cut) {text : String} {max : Nat}
    (h : text.length ≤ max) : n.cap text max = text := by
  rw [cap, hn, Text.cut, String.length_toList, if_neg (Nat.not_lt.2 h)]
  rfl

theorem length_code_name (c : ErrorCode) : c.name.length ≤ 30 := by cases c <;> decide

/-- **A failure shows its own code just if there is room for it, as there is without an output;
otherwise the table has only what the output says under that name.** -/
theorem code_shown (limits : ObservationLimits) (fallbacks : Keyed String) (tool : String)
    (raw : Json) (r : Result) (hfacts : 4 ≤ limits.maxFacts) (hchars : 30 ≤ limits.factChars)
    (hfailed : r.ok = false) :
    (raw = .null → HasRoom limits raw r) ∧
      ((plain limits fallbacks).observe tool raw r).facts.get? "error_code" =
        if HasRoom limits raw r then some r.code.name
        else (((failureLeaves raw).take (limits.maxFacts - 1)).reverse.lookup "error_code").map
          fun text => (plain limits fallbacks).cap text limits.factChars := by
  let n := plain limits fallbacks
  have hroom : HasRoom limits raw r ↔
      (failureLeaves raw).length < n.shownCount (allFacts raw r).length :=
    hasRoom_iff (n := n) (Nat.lt_of_lt_of_le (by decide) hfacts) hfailed
  refine ⟨fun hnull => hnull ▸ hasRoom_null hfacts, ?_⟩
  change (n.facts raw r).get? "error_code" = _
  rw [get?_facts_eq_map (by decide)]
  split
  · next h =>
    obtain ⟨count, hcount⟩ := Nat.exists_eq_add_of_lt (hroom.1 h)
    have htake : (allFacts raw r).take (n.shownCount (allFacts raw r).length) =
        failureLeaves raw ++ (failureFacts r).take (count + 1) := by
      rw [hcount, allFacts_of_failed hfailed, Nat.add_assoc, List.take_length_add_append]
    have hname : n.cap r.code.name n.limits.factChars = r.code.name :=
      cap_of_length_le rfl (Nat.le_trans (length_code_name _) hchars)
    rw [htake, List.reverse_append, List.lookup_append, lookup_take_failureFacts, Option.some_or,
      Option.map_some, hname]
  · next h =>
    have hcount : n.shownCount (allFacts raw r).length = limits.maxFacts - 1 := by
      have hlong : limits.maxFacts < (allFacts raw r).length := by
        rw [allFacts_of_failed hfailed, List.length_append]
        exact Nat.lt_of_not_le fun hle => h (.inl hle)
      have hmax : max 1 limits.maxFacts = limits.maxFacts := Nat.max_eq_right (by omega)
      rw [shownCount]
      change (if max 1 limits.maxFacts < _ then max 1 limits.maxFacts - 1 else _) = _
      rw [hmax, if_pos hlong]
    have hle : limits.maxFacts - 1 ≤ (failureLeaves raw).length :=
      hcount ▸ Nat.le_of_not_lt fun hlt => h (hroom.2 hlt)
    rw [hcount, allFacts_of_failed hfailed, List.take_append_of_le_length hle]
    rfl

/-- The code of a result whose output has a code of its own, with room for all facts. -/
theorem code_shown_beside_output :
    let limits : ObservationLimits := ⟨200, 4, 30⟩
    let raw : Json := .object [("error_code", .string "E1")]
    let r := { Result.failure ⟨"fetch", .emptyObject⟩ 1 .outputSchemaMismatch "no page" with
      data := raw }
    4 ≤ limits.maxFacts ∧ 30 ≤ limits.factChars ∧ r.ok = false ∧
      ((plain limits .empty).observe "fetch" raw r).facts.get? "error_code" =
        some "output_schema_mismatch" := by
  intro limits raw r
  exact ⟨by decide, by decide, rfl, (code_shown limits .empty "fetch" raw r (by decide) (by decide)
    rfl).2.trans (if_pos (by decide))⟩

/-- An output with a code of its own and too many leaves hides the code of the failure. -/
theorem output_hides_code :
    ¬ ∀ (limits : ObservationLimits) (fallbacks : Keyed String) (tool : String) (raw : Json)
      (r : Result), 4 ≤ limits.maxFacts → 30 ≤ limits.factChars → r.ok = false →
      ((plain limits fallbacks).observe tool raw r).facts.get? "error_code" =
        some r.code.name := by
  intro h
  let limits : ObservationLimits := ⟨200, 4, 120⟩
  let raw : Json := .object [("a", .nat 1), ("b", .nat 2), ("error_code", .string "E1")]
  let r := { Result.failure ⟨"fetch", .emptyObject⟩ 1 .outputSchemaMismatch "no page" with
    data := raw }
  have hshown := h limits .empty "fetch" raw r (by decide) (by decide) rfl
  have hhidden : ((plain limits .empty).observe "fetch" raw r).facts.get? "error_code" ≠
      some r.code.name := by decide
  exact hhidden hshown

end Normalizer

end Conductor

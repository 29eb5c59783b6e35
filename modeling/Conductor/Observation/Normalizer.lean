import Conductor.Observation.Basic
import Conductor.Observation.Leaves
import Conductor.Text.Excerpt

/-!
# Normalising results

From a result to an observation of bounded size: one sentence, the leaves of the output as facts,
and what the shape of the result suggests to do next. What is cut is marked as cut, and facts that
are left out are counted.

* `Normalizer.observe` : the observation of a result;
* `Normalizer.facts` : the facts, at most as many as the limits say;
* `Normalizer.affordances` : the suggestions.
-/

namespace Conductor

/-- The size of an observation. -/
structure ObservationLimits where
  summaryChars : Nat
  maxFacts : Nat
  factChars : Nat
  deriving DecidableEq, Repr, Inhabited

/-- The usual size. -/
def ObservationLimits.standard : ObservationLimits := ⟨200, 16, 120⟩

/-- How results become observations. -/
structure Normalizer where
  limits : ObservationLimits
  /-- How a text is shortened. -/
  limiter : String → Nat → Text.Cut
  /-- The tool to fall back on, for tools that name one. -/
  fallbacks : Keyed String

/-- What stands behind a text that has been cut. -/
def truncationMark : String := "…[truncated]"

/-- The key of the number of facts left out. -/
def omittedKey : String := "_omitted"

/-- The keys that lead to a next page. -/
def paginationKeys : List String := ["next_page", "next_cursor", "next_page_token", "next"]

namespace Normalizer

/-- The normalizer that cuts after a number of characters. -/
def plain (limits : ObservationLimits) (fallbacks : Keyed String) : Normalizer :=
  ⟨limits, Text.cut, fallbacks⟩

/-- The text, cut and marked if it is too long. -/
def cap (n : Normalizer) (text : String) (max : Nat) : String :=
  (n.limiter text max).marked truncationMark

/-! ### Summaries -/

/-- The sentence about a failed result. -/
def failureSummary (tool : String) (r : Result) : String :=
  let detail := (r.detail.map Text.firstSentence).getD ""
  let head := tool ++ " failed (" ++ r.code.name ++ ")"
  if detail.isEmpty then head ++ "." else head ++ ": " ++ detail

/-- The sentence about an output. -/
def outputSummary (tool : String) : Json → String
  | .null => tool ++ " succeeded with no output."
  | .string s => tool ++ ": " ++ Text.firstSentence s
  | .array xs => tool ++ " returned " ++ toString xs.length ++ " item(s)."
  | .object ms =>
    tool ++ " succeeded with fields: " ++ ", ".intercalate ((ms.take 4).map (·.1)) ++
      (if 4 < ms.length then ", ..." else "") ++ "."
  | j => tool ++ ": " ++ j.compact

/-- The sentence about a result. -/
def summary (tool : String) (raw : Json) (r : Result) : String :=
  if r.ok then outputSummary tool raw ++ (if r.repaired then " (output repaired)" else "")
  else failureSummary tool r

/-! ### Facts -/

/-- The facts about a failure itself. -/
def failureFacts (r : Result) : List (String × String) :=
  ("error_code", r.code.name) ::
    ((r.detail.map fun d => ("error_detail", d)).toList ++
      (if r.missingFields.isEmpty then []
        else [("missing_fields", ", ".intercalate r.missingFields)]))

/-- All facts about a result: the leaves of the output, then those about the failure. -/
def allFacts (raw : Json) (r : Result) : List (String × String) :=
  (if r.ok || !raw.isNull then raw.leaves else []) ++ (if r.ok then [] else failureFacts r)

/-- The facts that are shown, each one cut; of two facts of one name the later one counts. -/
def facts (n : Normalizer) (raw : Json) (r : Result) : Keyed String :=
  let all := allFacts raw r
  let most := max n.limits.maxFacts 1
  let keep := if most < all.length then most - 1 else all.length
  let shown : Keyed String :=
    .ofList ((all.take keep).map fun (k, v) => (k, n.cap v n.limits.factChars))
  if keep < all.length then
    shown.insert omittedKey (toString (all.length - keep) ++ " more fact(s) omitted")
  else shown

/-! ### Suggestions -/

/-- The output has a next page. -/
def hasNextPage (raw : Json) : Bool :=
  raw.isObject &&
    (raw.part? "has_more" Json.bool? == some true ||
      paginationKeys.any fun k => match raw.get? k with
        | none | some .null | some (.bool false) => false
        | some (.string s) => !s.isEmpty
        | some _ => true)

/-- The output says that it is not all. -/
def isPartial (raw : Json) : Bool :=
  raw.part? "partial" Json.bool? == some true ||
    ["errors", "failed"].any fun k => match raw.part? k Json.items? with
      | some xs => !xs.isEmpty
      | none => false

/-- The list without what stands in it before. -/
def distinct (l : List String) : List String :=
  l.foldl (fun acc a => if acc.contains a then acc else acc ++ [a]) []

/-- What may be done next. -/
def affordances (n : Normalizer) (tool : String) (raw : Json) (r : Result) : List String :=
  if r.ok then
    (if hasNextPage raw then ["next_page"] else []) ++
      (if isPartial raw then ["retry_failed_items"] else [])
  else
    distinct <|
      (if r.code.isTransient then ["retry"] else []) ++
      r.missingFields.map (fun f => "retry_with_param_" ++ f) ++
      (if r.code = .noResults then ["broaden_query"] else []) ++
      ((n.fallbacks.get? tool).map fun f => "fallback_tool_" ++ f).toList

/-- The observation of a result. -/
def observe (n : Normalizer) (tool : String) (raw : Json) (r : Result) : Observation where
  tool := tool
  summary := n.cap (summary tool raw r) n.limits.summaryChars
  facts := n.facts raw r
  affordances := n.affordances tool raw r
  result := r

end Normalizer

end Conductor

import Conductor.Critique.Critic
import Conductor.Proofs.Text.Substitution

/-!
# What the critic is shown

The template has places for the goal, for the tool and for the observation. They are filled in one
after the other, so that a place in the goal's text or in the tool's name is filled in as well.
Filling them in at once would leave what is put in as it is.

* `Critic.filled` : the template with all places filled in at once;
* `Critic.userText_eq_filled_iff` : **the critic is shown that exactly when goal and tool bring no
  further place,** if the goal brings none for the tool or the tool's name is unlike it;
* `Critic.filled_of_clear` : so it is for texts without a brace, if no place is put inside another
  one;
* `Critic.simultaneous_iff` : **for all goals and observations it is so only for templates with no
  place but the observation's;**
* `Critic.standardTemplate_tool_iff`, `Critic.standardTemplate_observation_iff` : the usual template
  is disturbed only by goals and tools that have a place in their text.
-/

namespace Conductor

namespace Critic

/-! ### The places -/

/-- The place for the goal's text. -/
def goalPlace : String := "\x7bgoal\x7d"

/-- The place for the tool's name. -/
def toolPlace : String := "\x7btool\x7d"

/-- The place for the observation. -/
def observationPlace : String := "\x7bobservation\x7d"

/-- The template with its three places filled in at once: what is put in is left as it is. -/
def filled (c : Critic) (goal : Goal) (o : Observation) : String :=
  Text.substitute c.template
    [(goalPlace, goal.text), (toolPlace, o.tool), (observationPlace, o.promptSection)]

/-- The goal's text brings no place for the tool into the template. -/
def BringsNoTool (c : Critic) (goal : Goal) : Prop :=
  Text.count toolPlace.toList (Text.substitute c.template [(goalPlace, goal.text)]).toList =
    Text.count toolPlace.toList c.template.toList

/-- The goal's text and the tool's name bring no place for the observation into the template. -/
def BringsNoObservation (c : Critic) (goal : Goal) (o : Observation) : Prop :=
  Text.count observationPlace.toList
      (Text.substitute c.template [(goalPlace, goal.text), (toolPlace, o.tool)]).toList =
    Text.count observationPlace.toList c.template.toList

/-- What is put in for the places. -/
def places (g t s : List Char) : List (List Char × List Char) :=
  [(goalPlace.toList, g), (toolPlace.toList, t), (observationPlace.toList, s)]

section Apart

variable (g t s : List Char)

theorem apart_places : Text.Apart '\x7b' (places g t s) where
  marked := by
    have hgoal : goalPlace.toList = '\x7b' :: goalPlace.toList.tail := by decide
    have htool : toolPlace.toList = '\x7b' :: toolPlace.toList.tail := by decide
    have hobs : observationPlace.toList = '\x7b' :: observationPlace.toList.tail := by decide
    simp only [places, List.forall_mem_cons, List.not_mem_nil, false_imp_iff, implies_true,
      and_true]
    exact ⟨⟨_, hgoal, by decide⟩, ⟨_, htool, by decide⟩, ⟨_, hobs, by decide⟩⟩
  unlike := by
    simp only [places, List.pairwise_cons, List.forall_mem_cons, List.not_mem_nil, false_imp_iff,
      implies_true, and_true, List.Pairwise.nil]
    decide

theorem apart_observation : Text.Apart '\x7b'
    (([(goalPlace.toList, g)] ++ [(toolPlace.toList, t)]) ++ [(observationPlace.toList, s)]) :=
  apart_places g t s

theorem apart_goal_tool : Text.Apart '\x7b' ([(goalPlace.toList, g)] ++ [(toolPlace.toList, t)]) :=
  (apart_observation g t []).init

end Apart

/-! ### One after the other and at once -/

section Filled

variable (c : Critic) (goal : Goal) (o : Observation)

theorem toList_userText :
    (c.userText goal o).toList =
      Text.substituteFrom [(observationPlace.toList, o.promptSection.toList)] 0
        (Text.substituteFrom [(toolPlace.toList, o.tool.toList)] 0
          (Text.substituteFrom [(goalPlace.toList, goal.text.toList)] 0 c.template.toList)) := by
  simp only [userText, Text.replaceAll, String.toList_ofList, Text.replaceFrom_eq, goalPlace,
    toolPlace, observationPlace]

theorem toList_filled :
    (c.filled goal o).toList =
      Text.substituteFrom (places goal.text.toList o.tool.toList o.promptSection.toList) 0
        c.template.toList := by
  simp only [filled, Text.substitute, String.toList_ofList, List.map_cons, List.map_nil, places]

theorem bringsNoTool_iff :
    c.BringsNoTool goal ↔
      Text.count toolPlace.toList
          (Text.substituteFrom [(goalPlace.toList, goal.text.toList)] 0 c.template.toList) =
        Text.count toolPlace.toList c.template.toList := by
  simp only [BringsNoTool, Text.substitute, String.toList_ofList, List.map_cons, List.map_nil]

theorem bringsNoObservation_iff :
    c.BringsNoObservation goal o ↔
      Text.count observationPlace.toList
          (Text.substituteFrom [(goalPlace.toList, goal.text.toList),
            (toolPlace.toList, o.tool.toList)] 0 c.template.toList) =
        Text.count observationPlace.toList c.template.toList := by
  simp only [BringsNoObservation, Text.substitute, String.toList_ofList, List.map_cons,
    List.map_nil]

/-- What is put in for an observation does not begin as a place. -/
theorem exists_promptSection : ∃ s, o.promptSection.toList = '#' :: s := by
  have hhead : "## Last observation (".toList = '#' :: "# Last observation (".toList := by decide
  simp only [Observation.promptSection, Observation.lines, List.cons_append, List.map_cons,
    String.join_cons, String.toList_append, hhead]
  exact ⟨_, rfl⟩

variable {c goal o}

/-- A further place for the tool is noticed when the tool's name is put in, if the name is unlike
it. -/
theorem bringsNoTool_of_eq (hname : Text.Unlike toolPlace.toList o.tool.toList)
    (h : c.userText goal o = c.filled goal o) : c.BringsNoTool goal := by
  obtain ⟨s, hs⟩ := exists_promptSection o
  rw [← String.toList_inj, toList_userText, toList_filled, hs] at h
  rw [bringsNoTool_iff]
  exact Text.count_eq_of_chain (apart_observation _ _ _) (by decide) (by decide) hname _ h

/-- If the goal brings no place for the tool, only a place for the observation is noticed. -/
theorem userText_eq_filled_iff_observation (h : c.BringsNoTool goal) :
    c.userText goal o = c.filled goal o ↔ c.BringsNoObservation goal o := by
  obtain ⟨s, hs⟩ := exists_promptSection o
  rw [bringsNoTool_iff] at h
  rw [← String.toList_inj, toList_userText, toList_filled, bringsNoObservation_iff, hs,
    Text.substitute_then (apart_goal_tool _ _) h]
  exact Text.substitute_then_iff (apart_observation _ _ _) (by decide)

/-- **The critic is shown the template with all places filled in at once** exactly when goal and
tool bring no further place, if the goal brings none for the tool or the tool's name is unlike
it. -/
theorem userText_eq_filled_iff
    (h : c.BringsNoTool goal ∨ Text.Unlike toolPlace.toList o.tool.toList) :
    c.userText goal o = c.filled goal o ↔ c.BringsNoTool goal ∧ c.BringsNoObservation goal o := by
  constructor
  · intro heq
    have htool : c.BringsNoTool goal := h.elim id fun hname => bringsNoTool_of_eq hname heq
    exact ⟨htool, (userText_eq_filled_iff_observation htool).1 heq⟩
  · exact fun ⟨htool, hobservation⟩ => (userText_eq_filled_iff_observation htool).2 hobservation

end Filled

/-! ### Templates that are not disturbed -/

section Clear

variable {c : Critic} {goal : Goal} {o : Observation}

/-- No place of the template stands where another one is begun. -/
def Clear (c : Critic) : Prop :=
  ∀ p ∈ [toolPlace, observationPlace], ∀ q ∈ [goalPlace, toolPlace],
    Text.Unbegun p.toList q.toList c.template.toList

/-- **Texts without a brace are left as they are** in a template in which no place is put inside
another one. -/
theorem filled_of_clear (hclear : c.Clear) (hgoal : '\x7b' ∉ goal.text.toList)
    (htool : '\x7b' ∉ o.tool.toList) : c.userText goal o = c.filled goal o := by
  have hnoTool : c.BringsNoTool goal := by
    rw [bringsNoTool_iff]
    refine Text.count_substitute_eq (apart_goal_tool _ []) ?_ ?_
    · exact List.forall_mem_singleton.2 hgoal
    · exact List.forall_mem_singleton.2 (hclear toolPlace (by simp) goalPlace (by simp))
  rw [userText_eq_filled_iff_observation hnoTool, bringsNoObservation_iff]
  refine Text.count_substitute_eq (apart_observation _ _ []) ?_ ?_
  · exact List.forall_mem_cons.2 ⟨hgoal, List.forall_mem_singleton.2 htool⟩
  · exact List.forall_mem_cons.2 ⟨hclear observationPlace (by simp) goalPlace (by simp),
      List.forall_mem_singleton.2 (hclear observationPlace (by simp) toolPlace (by simp))⟩

/-- **For all goals and observations the places are filled in at once** only if the template has no
place but the observation's. -/
theorem simultaneous_iff :
    (∀ goal o, c.userText goal o = c.filled goal o) ↔
      ¬ goalPlace.toList <:+: c.template.toList ∧ ¬ toolPlace.toList <:+: c.template.toList := by
  constructor
  · intro h
    -- the place of the observation is put in for the goal and for the tool
    let goal : Goal := { (default : Goal) with text := observationPlace }
    let o : Observation := { (default : Observation) with tool := observationPlace }
    have hname : Text.Unlike toolPlace.toList o.tool.toList := by decide
    have hnone := ((userText_eq_filled_iff (.inr hname)).1 (h goal o)).2
    rw [bringsNoObservation_iff] at hnone
    have hT := apart_observation observationPlace.toList observationPlace.toList []
    have hlt : ∀ q, (q, observationPlace.toList) ∈
        [(goalPlace.toList, observationPlace.toList), (toolPlace.toList, observationPlace.toList)] →
        ¬ q <:+: c.template.toList := fun q hq hl =>
      (Text.count_lt_substitute hT hq List.infix_rfl hl).ne' hnone
    exact ⟨hlt _ (by simp), hlt _ (by simp)⟩
  · rintro ⟨hgoal, htool⟩ goal o
    rw [userText_eq_filled_iff_observation, bringsNoObservation_iff, Text.substituteFrom_of_none]
    · simpa using ⟨hgoal, htool⟩
    · rw [bringsNoTool_iff, Text.substituteFrom_of_none]
      simpa using hgoal

end Clear

/-! ### The usual template -/

section Standard

variable {goal : Goal} {o : Observation}

/-- The end of the usual template, behind the place for the tool's name. -/
def standardEnd : String :=
  " just returned:\n" ++ observationPlace ++ "\n" ++
    "Does this result satisfy the goal? Answer with one JSON object."

theorem standardTemplate_eq :
    standardTemplate = "Goal:" ++ (" " ++ (goalPlace ++ ("\n" ++ ("\nThe tool " ++ ("'" ++
      (toolPlace ++ ("'" ++ standardEnd))))))) := by decide

/-- Each place stands between two letters that no place has. -/
theorem toList_standardTemplate :
    standardTemplate.toList = "Goal:".toList ++ ' ' :: (goalPlace.toList ++ '\n' ::
      ("\nThe tool ".toList ++ '\'' :: (toolPlace.toList ++ '\'' :: standardEnd.toList))) := by
  rw [standardTemplate_eq]
  simp only [String.toList_append]
  rfl

/-- No letter beside a place of the usual template is in a pattern. -/
def Beside (p : List Char) : Prop := ' ' ∉ p ∧ '\n' ∉ p ∧ '\'' ∉ p

instance (p : List Char) : Decidable (Beside p) := inferInstanceAs (Decidable (_ ∧ _))

section Parts

variable {p : List Char} {table : List (List Char × List Char)}

/-- Filling in leaves a pattern as often as it stands in the parts of the usual template. -/
theorem count_standardTemplate (hp : p ≠ []) (hbeside : Beside p)
    (htable : ∀ e ∈ table, e.1 ∈ [goalPlace.toList, toolPlace.toList]) :
    Text.count p (Text.substituteFrom table 0 standardTemplate.toList) =
      Text.count p "Goal:".toList +
      (Text.count p (Text.substituteFrom table 0 goalPlace.toList) +
      (Text.count p "\nThe tool ".toList +
      (Text.count p (Text.substituteFrom table 0 toolPlace.toList) +
        Text.count p standardEnd.toList))) := by
  have hplaces : ∀ q ∈ [goalPlace.toList, toolPlace.toList], q ≠ [] ∧ Beside q := by decide
  have hparts : ∀ l ∈ ["Goal:".toList, "\nThe tool ".toList, standardEnd.toList],
      ∀ q ∈ [goalPlace.toList, toolPlace.toList], ¬ q <:+: l := by decide +kernel
  have hnone : ∀ l ∈ ["Goal:".toList, "\nThe tool ".toList, standardEnd.toList],
      Text.substituteFrom table 0 l = l := fun l hl =>
    Text.substituteFrom_of_none fun e he => hparts l hl e.1 (htable e he)
  have hdivide : ∀ {c}, (∀ q ∈ [goalPlace.toList, toolPlace.toList], c ∉ q) → ∀ u v,
      Text.substituteFrom table 0 (u ++ c :: v) =
        Text.substituteFrom table 0 u ++ c :: Text.substituteFrom table 0 v := fun hc u v =>
    Text.substituteFrom_append_cons (Nat.zero_le _) (fun e he => (hplaces e.1 (htable e he)).1)
      fun e he => hc e.1 (htable e he)
  obtain ⟨hspace, hline, hquote⟩ := hbeside
  rw [toList_standardTemplate, hdivide fun q hq => (hplaces q hq).2.1,
    hdivide fun q hq => (hplaces q hq).2.2.1, hdivide fun q hq => (hplaces q hq).2.2.2,
    hdivide fun q hq => (hplaces q hq).2.2.2, Text.count_append_cons hp hspace,
    Text.count_append_cons hp hline, Text.count_append_cons hp hquote,
    Text.count_append_cons hp hquote, hnone "Goal:".toList (by simp),
    hnone "\nThe tool ".toList (by simp), hnone standardEnd.toList (by simp)]

end Parts

/-- **The usual template is left without a further place for the tool** exactly by the goals that
have none in their text. -/
theorem standardTemplate_tool_iff :
    (plain standardTemplate).BringsNoTool goal ↔ ¬ toolPlace.toList <:+: goal.text.toList := by
  have hne : toolPlace.toList ≠ [] := by decide
  have hnone : Text.count toolPlace.toList goalPlace.toList = 0 := by decide
  have htable : ∀ e ∈ [(goalPlace.toList, goal.text.toList)],
      e.1 ∈ [goalPlace.toList, toolPlace.toList] := by simp
  have hgoal : Text.substituteFrom [(goalPlace.toList, goal.text.toList)] 0 goalPlace.toList =
      goal.text.toList := List.append_nil _
  have htool : Text.substituteFrom [(goalPlace.toList, goal.text.toList)] 0 toolPlace.toList =
      toolPlace.toList := rfl
  have hafter := count_standardTemplate hne (by decide) htable
  have hbefore := count_standardTemplate hne (by decide) (List.forall_mem_nil _)
  simp only [Text.substituteFrom_nil] at hbefore
  rw [hgoal, htool] at hafter
  rw [bringsNoTool_iff, ← Text.count_eq_zero_iff hne]
  change Text.count _ (Text.substituteFrom _ 0 standardTemplate.toList) =
    Text.count _ standardTemplate.toList ↔ _
  omega

/-- **It is left without a further place for the observation** exactly by the goals and tools that
have none in their text. -/
theorem standardTemplate_observation_iff :
    (plain standardTemplate).BringsNoObservation goal o ↔
      ¬ observationPlace.toList <:+: goal.text.toList ∧
        ¬ observationPlace.toList <:+: o.tool.toList := by
  have hne : observationPlace.toList ≠ [] := by decide
  have hnone : Text.count observationPlace.toList goalPlace.toList = 0 ∧
      Text.count observationPlace.toList toolPlace.toList = 0 := by decide
  have htable : ∀ e ∈ [(goalPlace.toList, goal.text.toList), (toolPlace.toList, o.tool.toList)],
      e.1 ∈ [goalPlace.toList, toolPlace.toList] := by simp
  have hgoal : Text.substituteFrom [(goalPlace.toList, goal.text.toList),
      (toolPlace.toList, o.tool.toList)] 0 goalPlace.toList = goal.text.toList := List.append_nil _
  have htool : Text.substituteFrom [(goalPlace.toList, goal.text.toList),
      (toolPlace.toList, o.tool.toList)] 0 toolPlace.toList = o.tool.toList := List.append_nil _
  have hafter := count_standardTemplate hne (by decide) htable
  have hbefore := count_standardTemplate hne (by decide) (List.forall_mem_nil _)
  simp only [Text.substituteFrom_nil] at hbefore
  rw [hgoal, htool] at hafter
  rw [bringsNoObservation_iff, ← Text.count_eq_zero_iff hne, ← Text.count_eq_zero_iff hne]
  change Text.count _ (Text.substituteFrom _ 0 standardTemplate.toList) =
    Text.count _ standardTemplate.toList ↔ _
  omega

end Standard

/-! ### The prompt -/

/-- **The critic's prompt has the template with all places filled in at once** exactly when goal and
tool bring no further place, if the goal brings none for the tool or the tool's name is unlike it.
For all goals and observations it has that only if the template has no place but the
observation's. -/
theorem prompt_filled (c : Critic) :
    (∀ goal o, c.BringsNoTool goal ∨ Text.Unlike toolPlace.toList o.tool.toList →
      ((c.prompt goal o).user = c.filled goal o ↔
        c.BringsNoTool goal ∧ c.BringsNoObservation goal o)) ∧
    ((∀ goal o, (c.prompt goal o).user = c.filled goal o) ↔
      ¬ goalPlace.toList <:+: c.template.toList ∧ ¬ toolPlace.toList <:+: c.template.toList) :=
  ⟨fun _ _ h => userText_eq_filled_iff h, simultaneous_iff⟩

/-- A goal with a place in its text, and what a tool returned for it. -/
def bracedGoal : Goal := { (default : Goal) with text := "Write \x7bgoal\x7d as it is." }

def fetched : Observation := { (default : Observation) with tool := "fetch" }

/-- The place for the goal is not looked for once more. -/
theorem prompt_filled_braced :
    (plain standardTemplate).BringsNoTool bracedGoal ∧
      ((plain standardTemplate).prompt bracedGoal fetched).user =
        (plain standardTemplate).filled bracedGoal fetched := by
  have htool : (plain standardTemplate).BringsNoTool bracedGoal :=
    standardTemplate_tool_iff.2 (by decide)
  have hobservation : (plain standardTemplate).BringsNoObservation bracedGoal fetched :=
    standardTemplate_observation_iff.2 (by decide)
  exact ⟨htool, ((prompt_filled _).1 bracedGoal fetched (.inl htool)).2 ⟨htool, hobservation⟩⟩

/-- A goal that is the place for the tool is shown as the tool's name. -/
theorem place_in_goal_filled :
    ((plain standardTemplate).prompt { (default : Goal) with text := toolPlace } fetched).user ≠
      (plain standardTemplate).filled { (default : Goal) with text := toolPlace } fetched := by
  intro h
  rw [prompt, ← String.toList_inj, toList_userText, toList_filled] at h
  revert h
  decide +kernel

end Critic

end Conductor

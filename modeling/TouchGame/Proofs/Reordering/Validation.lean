import Mathlib.Logic.Relation
import TouchGame.Proofs.Check.Names
import TouchGame.Proofs.Reordering.Conflicts
import TouchGame.Proofs.Reordering.Rulewise
import TouchGame.Proofs.Repair.Fixes

/-!
# Validation in another order

Reordering a rule-set leaves its checks possible and their verdicts the same, each as many times as
before. One reordering goes through the checks one by one; any number of them follows by induction.

* `Action.Reorders.action_perm`, `Rule.Reorders.rule_perm` : the fieldwise check.
* `Game.Reorders.fieldwise_perm`, `rulewise_perm` : the verdicts of both checks.
* `Game.Reorders.fieldwiseFault?_isSome`, `rulewiseFault?_isSome` : whether they can be made.
* `validate_reordered` : both checks of a rule-set whose lists are put in any other order.
-/

namespace TouchGame

open Check Mending

variable {v : Vocabulary}

/-! ## The fieldwise check -/

theorem Action.Reorders.action_perm {scope : Scope} {a a' : Action} (h : a.Reorders a') :
    ((action scope [] a').map Finding.verdict).Perm ((action scope [] a).map Finding.verdict) := by
  by_cases hsupported : scope.vocabulary.hasAction (.str "randomAction") = true
  · induction h with
    | options h =>
      rw [verdicts_choice _ _ _ _ hsupported, verdicts_choice _ _ _ _ hsupported]
      exact (h.flatMap_right _).append_left _
    | @inside before after o a mode weights _ ih =>
      have hoption : (optionVerdicts scope { o with action := a }).Perm (optionVerdicts scope o) := by
        rw [optionVerdicts, optionVerdicts, optionFindings, optionFindings, List.map_append,
          List.map_append, verdicts_action _ [] a, verdicts_action _ [] o.action]
        exact ih.append_left _
      rw [verdicts_choice _ _ _ _ hsupported, verdicts_choice _ _ _ _ hsupported,
        List.flatMap_append, List.flatMap_append, List.flatMap_cons, List.flatMap_cons]
      exact ((hoption.append_right _).append_left _).append_left _
  · cases h with
    | options h =>
      rw [action, action, if_neg hsupported, if_neg hsupported]
      exact .refl _
    | inside h =>
      rw [action, action, if_neg hsupported, if_neg hsupported]
      exact .refl _

namespace Rule.Reorders

variable {r r' : Rule}

theorem operatorFindings_verdicts (h : r.Reorders r') :
    (operatorFindings v 0 r').map Finding.verdict = (operatorFindings v 0 r).map Finding.verdict := by
  have hverdicts (s : Rule) : (operatorFindings v 0 s).map Finding.verdict =
      ((s.trigger.get?.map (·.operator)).map fun operator =>
        (enumerated ⟨v, r⟩ "trigger.operator" (.value operator) [] "").map Finding.verdict).getD [] := by
    unfold operatorFindings
    cases s.trigger.get? with
    | none => rfl
    | some t =>
      simp only [Option.map_some, Option.getD_some, enumerated]
      split
      · rfl
      · simp
  rw [hverdicts, hverdicts, h.operator?_eq]

theorem rule_perm (h : r.Reorders r') :
    ((rule v 0 r').map Finding.verdict).Perm ((rule v 0 r).map Finding.verdict) := by
  rw [verdicts_rule, verdicts_rule, h.operatorFindings_verdicts,
    condition_scope h.id_eq h.targetObject_eq, action_scope h.id_eq h.targetObject_eq]
  refine (List.Perm.append ?_ ?_).append_left _
  · exact h.conditions_perm.flatMap_right _
  · exact h.actions_flatMap fun ha => ha.action_perm

end Rule.Reorders

theorem length_repeated_perm {texts texts' : List String} (h : texts'.Perm texts) :
    (repeated texts').length = (repeated texts).length := by
  have hdistinct : texts'.eraseDups.Perm texts.eraseDups := by
    rw [List.perm_ext_iff_of_nodup (nodup_eraseDups _) (nodup_eraseDups _)]
    intro s
    rw [List.mem_eraseDups, List.mem_eraseDups, h.mem_iff]
  have hcount (s : String) : texts'.count s = texts.count s := h.count_eq s
  simp only [repeated, hcount]
  exact ((hdistinct.map _).filter _).length_eq

namespace Game.Reorders

variable {g g' : Game}

theorem fieldwise_perm (h : g.Reorders g') :
    ((fieldwise v g').map Finding.verdict).Perm ((fieldwise v g).map Finding.verdict) := by
  have hids : (ruleIds g').map Finding.verdict = (ruleIds g).map Finding.verdict := by
    rw [ruleIds, ruleIds, verdicts_map fun _ => Finding.verdict_critical .duplicateRuleId ..,
      verdicts_map fun _ => Finding.verdict_critical .duplicateRuleId ..,
      length_repeated_perm (h.rules_map fun hr => hr.id_eq)]
  have hlayout : Check.layout g' = Check.layout g := by
    rw [h.withRules]
    rfl
  have hpositions : initialPositions g' = initialPositions g := by
    rw [h.withRules]
    rfl
  have hrule (index : Nat) (r : Rule) :
      (rule v index r).map Finding.verdict = (rule v 0 r).map Finding.verdict := by
    rw [verdicts_rule, verdicts_rule]
  simp only [fieldwise, List.map_append, hids, hlayout, hpositions, verdicts_indexed hrule]
  exact (h.rules_flatMap fun hr => hr.rule_perm).append_left _

/-! ## The check between rules -/

theorem rulewise_perm (h : g.Reorders g') :
    ((rulewiseFindings g').map Finding.verdict).Perm ((rulewiseFindings g).map Finding.verdict) := by
  simp only [rulewiseFindings, List.map_append, h.outcomesExist_eq, h.playerAction_verdicts,
    h.counterUses_verdicts]
  refine (((List.Perm.append_right _ ?_).append h.conflicts_perm).append_right _).append
    h.successReachability_perm
  exact ((h.references_perm.append_right _).append h.instantOutcomes_perm).append
    h.automaticOutcomes_perm

end Game.Reorders

/-! ## Checks that cannot be made -/

theorem Action.Reorders.actionFault?_isSome {a a' : Action} (h : a.Reorders a') :
    (actionFault? v a').isSome = (actionFault? v a).isSome := by
  have hchoice (options : List (ChoiceOption Action)) (mode : Slot String)
      (weights : Slot (List Number)) : (actionFault? v (.choice options mode weights)).isSome =
        (v.hasAction (.str "randomAction") &&
          options.any fun o => (actionFault? v o.action).isSome) := by
    rw [actionFault?, optionsFault?_eq]
    split
    · rename_i hsupported
      rw [hsupported, Bool.true_and, List.isSome_findSome?]
    · rename_i hunsupported
      rw [Bool.eq_false_iff.mpr hunsupported]
      rfl
  induction h with
  | options h => rw [hchoice, hchoice, h.any_eq]
  | inside _ ih => rw [hchoice, hchoice, List.any_append, List.any_append, List.any_cons, List.any_cons, ih]

namespace Rule.Reorders

variable {r r' : Rule}

theorem lookFault?_eq (field : Key) (h : r.Reorders r') :
    lookFault? field r'.trigger = lookFault? field r.trigger := by
  cases h with
  | conditions htrigger h =>
    rw [htrigger]
    rfl
  | actions h => rfl
  | inside hactions h => rfl

theorem ruleFault?_isSome (h : r.Reorders r') :
    (ruleFault? v r').isSome = (ruleFault? v r).isSome := by
  have hactions : r'.actions.any (fun a => (actionFault? v a).isSome) =
      r.actions.any fun a => (actionFault? v a).isSome :=
    any_eq_of_map (h.actions_map fun ha => ha.actionFault?_isSome)
  simp only [ruleFault?, Option.isSome_or, List.isSome_findSome?, h.lookFault?_eq,
    h.conditions_perm.any_eq, hactions]

theorem wiringFault?_isSome (h : r.Reorders r') :
    (wiringFault? r').isSome = (wiringFault? r).isSome := by
  have hactions : r'.allActions.any (fun a => (movementFault? a).isSome) =
      r.allActions.any fun a => (movementFault? a).isSome :=
    h.allActions_any fun _ _ _ _ => rfl
  simp only [wiringFault?, Option.isSome_or, List.isSome_findSome?, h.lookFault?_eq, hactions]

end Rule.Reorders

namespace Game.Reorders

variable {g g' : Game}

theorem fieldwiseFault?_isSome (h : g.Reorders g') :
    (fieldwiseFault? v g').isSome = (fieldwiseFault? v g).isSome := by
  have hlayout : g'.layout = g.layout := by rw [h.withRules]
  have hobjects : g'.objects = g.objects := by rw [h.withRules]
  have hrules := h.rules_any fun hr => hr.ruleFault?_isSome (v := v)
  simp only [fieldwiseFault?, Option.isSome_or, List.isSome_findSome?, hlayout, hobjects, hrules]

theorem rulewiseFault?_isSome (h : g.Reorders g') :
    (rulewiseFault? g').isSome = (rulewiseFault? g).isSome := by
  have hconditions : (allConditions g').Perm (allConditions g) :=
    h.rules_flatMap fun hr => hr.conditions_perm
  have hrules := h.rules_any fun hr => hr.wiringFault?_isSome
  have hown := h.rules_any fun hr => hr.ownSortFault?_isSome
  simp only [rulewiseFault?, conflictFault?, Option.isSome_or, List.isSome_findSome?,
    hconditions.any_eq, hrules, hown, h.groupSortFault?_isSome]

/-! ## Validation -/

theorem validate_step (h : g.Reorders g') {findings : List Finding}
    (hfindings : validate v g = .ok findings) : ∃ findings', validate v g' = .ok findings' ∧
      (findings'.map Finding.verdict).Perm (findings.map Finding.verdict) := by
  obtain ⟨hfield, hrule, rfl⟩ := validate_ok_iff.mp hfindings
  have hfield' : fieldwiseFault? v g' = none := by
    rw [← Option.isNone_iff_eq_none, ← Option.not_isSome, h.fieldwiseFault?_isSome, hfield]
    rfl
  have hrule' : rulewiseFault? g' = none := by
    rw [← Option.isNone_iff_eq_none, ← Option.not_isSome, h.rulewiseFault?_isSome, hrule]
    rfl
  refine ⟨_, validate_ok_iff.mpr ⟨hfield', hrule', rfl⟩, ?_⟩
  rw [List.map_append, List.map_append]
  exact h.fieldwise_perm.append h.rulewise_perm

end Game.Reorders

/-- **Validation does not depend on order.** The rules of a rule-set, the conditions and the actions of
its rules and the options of its choices are put in any other order. Then its check can still be made,
it finds as many of each severity and code, and it accepts the rule-set if it did before. -/
theorem validate_reordered {g g' : Game} (h : Relation.ReflTransGen Game.Reorders g g')
    {findings : List Finding} (hfindings : validate v g = .ok findings) :
    ∃ findings', validate v g' = .ok findings' ∧
      (findings'.map Finding.verdict).Perm (findings.map Finding.verdict) ∧
        accepts findings' = accepts findings := by
  have hrun : ∃ findings', validate v g' = .ok findings' ∧
      (findings'.map Finding.verdict).Perm (findings.map Finding.verdict) := by
    induction h with
    | refl => exact ⟨findings, hfindings, .refl _⟩
    | tail _ hstep ih =>
      obtain ⟨middle, hmiddle, hperm⟩ := ih
      obtain ⟨last, hlast, hperm'⟩ := hstep.validate_step hmiddle
      exact ⟨last, hlast, hperm'.trans hperm⟩
  obtain ⟨findings', hfindings', hperm⟩ := hrun
  exact ⟨findings', hfindings', hperm, accepts_of_perm hperm⟩

/-- A touch of the star, with enough points, wins or loses. -/
def gamble (conditions : List Condition) (options : List (ChoiceOption Action)) : Rule :=
  ⟨"gamble", .empty, .value "star", .value ⟨"AND", conditions⟩, [.choice options .empty .empty]⟩

/-- Waiting loses. -/
def timeout : Rule :=
  ⟨"timeout", .empty, .empty, .value ⟨"AND", [.time (.value "exact") (some 10) none]⟩,
    [.failure none .empty]⟩

/-- A game with a star that is not in the asset plan, and with points that nothing counts. -/
def casino (rules : List Rule) : Game where
  layout := [⟨"star", ⟨.thousandths 500, .thousandths 500⟩, .empty⟩]
  counters := [⟨"points", .empty, 0⟩]
  rules := rules
  objects := []
  sounds := []
  music := .empty

theorem validate_reordered_casino :
    let touch : Condition := .touch .empty (.value "down")
    let points : Condition := .counter (.value "points") .empty (some 5)
    let win : ChoiceOption Action := ⟨.success none .empty, none, some 2⟩
    let lose : ChoiceOption Action := ⟨.failure none .empty, none, none⟩
    let game := casino [gamble [touch, points] [win, lose], timeout]
    let shuffled := casino [timeout, gamble [points, touch] [lose, win]]
    Relation.ReflTransGen Game.Reorders game shuffled ∧ ∃ findings findings',
      validate .editor game = .ok findings ∧ validate .editor shuffled = .ok findings' ∧
        (findings'.map Finding.verdict).Perm (findings.map Finding.verdict) ∧
          accepts findings = false ∧ accepts findings' = false := by
  intro touch points win lose game shuffled
  have hreorders : Relation.ReflTransGen Game.Reorders game shuffled := by
    have hrules : game.Reorders (casino [timeout, gamble [touch, points] [win, lose]]) :=
      .rules (.swap ..)
    have hconditions : (gamble [touch, points] [win, lose]).Reorders
        (gamble [points, touch] [win, lose]) :=
      Rule.Reorders.conditions (r := gamble [touch, points] [win, lose]) rfl (.swap ..)
    have hoptions : (gamble [points, touch] [win, lose]).Reorders
        (gamble [points, touch] [lose, win]) := by
      have hactions : (gamble [points, touch] [win, lose]).actions =
        [] ++ .choice [win, lose] .empty .empty :: [] := rfl
      exact .inside hactions (.options (.swap ..))
    have hinside {r r' : Rule} (h : r.Reorders r') :
        (casino [timeout, r]).Reorders (casino [timeout, r']) := by
      have hrules : (casino [timeout, r]).rules = [timeout] ++ r :: [] := rfl
      exact .inside hrules h
    exact ((Relation.ReflTransGen.single hrules).tail (hinside hconditions)).tail (hinside hoptions)
  have hgame : validate .editor game = .ok (fieldwise .editor game ++ rulewiseFindings game) :=
    validate_ok_iff.mpr
      ⟨by decide +kernel, (rulewiseFault?_of_texts (by decide +kernel)).trans (by decide +kernel), rfl⟩
  have hrejected : accepts (fieldwise .editor game ++ rulewiseFindings game) = false := by
    decide +kernel
  obtain ⟨findings', hshuffled, hperm, haccepts⟩ := validate_reordered hreorders hgame
  exact ⟨hreorders, _, findings', hgame, hshuffled, hperm, hrejected, haccepts.trans hrejected⟩

end TouchGame

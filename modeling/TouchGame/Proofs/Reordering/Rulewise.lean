import TouchGame.Proofs.Check.Verdicts
import TouchGame.Proofs.Reordering.Basic

/-!
# Checks between rules in another order

Reordering leaves the wiring of a rule-set as it is: the same rules read, write and are led by the
player. So each check between rules, conflicts left aside, finds as many of each code as before.

* `Rule.Reorders.gatedByPlayer_eq`, `Game.Reorders.fedByPlayer_eq`, `ledByPlayer_eq` : the wiring.
* `Game.Reorders.references_perm` and what follows it : the verdicts of each check.
-/

namespace TouchGame

open Check

/-! ## Rules -/

namespace Rule.Reorders

variable {r r' : Rule} {g : Game}

theorem draggedObjects_perm (h : r.Reorders r') : r'.draggedObjects.Perm r.draggedObjects := by
  rw [draggedObjects, draggedObjects, List.filterMap_filter, List.filterMap_filter, h.objectOf_eq]
  exact h.allActions_filterMap fun _ _ _ _ => rfl

theorem shownOrHidden?_eq (h : r.Reorders r') : r'.shownOrHidden? = r.shownOrHidden? := by
  funext a
  rw [shownOrHidden?, shownOrHidden?, h.objectOf_eq]

theorem conditions_isEmpty (h : r.Reorders r') : r'.conditions.isEmpty = r.conditions.isEmpty :=
  h.conditions_perm.isEmpty_eq

theorem isInput_eq (h : r.Reorders r') (input : Input) : r'.isInput input = r.isInput input := by
  funext c
  unfold isInput
  rw [h.resolve_eq, h.targetObject_eq]

theorem gatedByPlayer_eq (h : r.Reorders r') (input : Input) :
    r'.gatedByPlayer input = r.gatedByPlayer input := by
  rw [gatedByPlayer, gatedByPlayer, h.isInput_eq, h.conditions_perm.any_eq]

theorem ledByPlayer_eq (h : r.Reorders r') (input : Input) :
    g.ledByPlayer input r' = g.ledByPlayer input r := by
  rw [Game.ledByPlayer, Game.ledByPlayer, h.gatedByPlayer_eq, h.conditions_perm.any_eq]

theorem automaticSuccess_verdicts (h : r.Reorders r') :
    (automaticSuccess g r').map Finding.verdict = (automaticSuccess g r).map Finding.verdict := by
  simp only [automaticSuccess, autoSuccess, h.conditions_perm.all_eq, verdicts_ite, List.map_cons,
    List.map_nil, Finding.verdict_critical]

theorem automaticFailure_verdicts (h : r.Reorders r') :
    (automaticFailure r').map Finding.verdict = (automaticFailure r).map Finding.verdict := by
  simp only [automaticFailure, h.conditions_perm.all_eq, verdicts_ite, List.map_cons, List.map_nil,
    Finding.verdict_critical]

theorem successNeeds_eq (h : r.Reorders r') (c : Condition) :
    (successNeeds g r' [] c).map Finding.verdict = (successNeeds g r [] c).map Finding.verdict := by
  unfold successNeeds
  rw [h.resolve_eq]
  split
  iterate 3
    split
    · simp
    · rfl
  · rfl

theorem ruleReferences_perm (h : r.Reorders r') :
    ((ruleReferences g 0 r').map Finding.verdict).Perm ((ruleReferences g 0 r).map Finding.verdict) := by
  have hcondition (c : Condition) : (conditionReferences g r' [] c).map Finding.verdict =
      (conditionReferences g r [] c).map Finding.verdict := verdicts_conditionReferences r' r [] [] c
  have haction (a : Action) : (actionReferences g r' [] a).map Finding.verdict =
      (actionReferences g r [] a).map Finding.verdict := verdicts_actionReferences r' r [] [] a
  have hactions : (r'.allActions.flatMap fun a => (actionReferences g r [] a).map Finding.verdict).Perm
      (r.allActions.flatMap fun a => (actionReferences g r [] a).map Finding.verdict) := by
    rw [List.flatMap_def, List.flatMap_def]
    exact (h.allActions_map fun _ _ _ _ => rfl).flatten
  simp only [verdicts_ruleReferences, h.targetObject_eq, hcondition, haction]
  exact ((h.conditions_perm.flatMap_right _).append hactions).append_left _

theorem bringsAtStart_eq (h : r.Reorders r') (outcome : InstantOutcome) :
    bringsAtStart g outcome r' = bringsAtStart g outcome r := by
  rw [bringsAtStart, bringsAtStart, h.mayFire_eq, h.conditions_isEmpty, h.conditions_perm.any_eq]

end Rule.Reorders

/-! ## The wiring -/

namespace Game.Reorders

variable {g g' : Game}

theorem dragged_perm (h : g.Reorders g') : g'.dragged.Perm g.dragged :=
  h.rules_flatMap fun hr => hr.draggedObjects_perm

theorem counterWriters_any {q : Rule → Bool} (h : g.Reorders g') (counter : Name)
    (hq : ∀ {r r'}, r.Reorders r' → q r' = q r) :
    (g'.counterWriters counter).any q = (g.counterWriters counter).any q :=
  h.rules_filter_any (fun hr => hr.allActions_any fun _ _ _ _ => rfl) hq

theorem flagWriters_any {q : Rule → Bool} (h : g.Reorders g') (flag : Name)
    (hq : ∀ {r r'}, r.Reorders r' → q r' = q r) :
    (g'.flagWriters flag).any q = (g.flagWriters flag).any q :=
  h.rules_filter_any (fun hr => hr.allActions_any fun _ _ _ _ => rfl) hq

theorem counterWriters_isEmpty (h : g.Reorders g') (counter : Name) :
    (g'.counterWriters counter).isEmpty = (g.counterWriters counter).isEmpty :=
  h.rules_filter_isEmpty fun hr => hr.allActions_any fun _ _ _ _ => rfl

theorem counterReaders_isEmpty (h : g.Reorders g') (counter : Name) :
    (g'.counterReaders counter).isEmpty = (g.counterReaders counter).isEmpty :=
  h.rules_filter_isEmpty fun hr => hr.conditions_perm.any_eq

theorem flagWriters_isEmpty (h : g.Reorders g') (flag : Name) :
    (g'.flagWriters flag).isEmpty = (g.flagWriters flag).isEmpty :=
  h.rules_filter_isEmpty fun hr => hr.allActions_any fun _ _ _ _ => rfl

theorem visibilityWriters_isEmpty (h : g.Reorders g') (object : Name) :
    (g'.visibilityWriters object).isEmpty = (g.visibilityWriters object).isEmpty := by
  refine h.rules_filter_isEmpty fun hr => ?_
  rw [hr.shownOrHidden?_eq]
  exact hr.allActions_any fun _ _ _ _ => rfl

theorem fedByPlayer_eq (h : g.Reorders g') (input : Input) :
    g'.fedByPlayer input = g.fedByPlayer input := by
  funext c
  unfold fedByPlayer
  dsimp only
  split
  · exact h.counterWriters_any _ fun hr => hr.gatedByPlayer_eq input
  · exact h.flagWriters_any _ fun hr => hr.gatedByPlayer_eq input
  · rfl

theorem ledByPlayer_eq (h : g.Reorders g') (input : Input) :
    g'.ledByPlayer input = g.ledByPlayer input := by
  funext r
  rw [ledByPlayer, ledByPlayer, h.fedByPlayer_eq]

theorem ledByPlayer_dragged (h : g.Reorders g') :
    g'.ledByPlayer (.dragOnly g'.dragged) = g.ledByPlayer (.dragOnly g.dragged) := by
  have hcontains : g'.dragged.contains = g.dragged.contains := by
    funext name
    exact h.dragged_perm.contains_eq
  have hinput (r : Rule) : r.isInput (.dragOnly g'.dragged) = r.isInput (.dragOnly g.dragged) := by
    funext c
    simp only [Rule.isInput, Input.involves, hcontains]
  have hgated (r : Rule) :
      r.gatedByPlayer (.dragOnly g'.dragged) = r.gatedByPlayer (.dragOnly g.dragged) := by
    rw [Rule.gatedByPlayer, Rule.gatedByPlayer, hinput]
  have hfed : g.fedByPlayer (.dragOnly g'.dragged) = g.fedByPlayer (.dragOnly g.dragged) := by
    funext c
    simp only [fedByPlayer, hgated]
  rw [h.ledByPlayer_eq]
  funext r
  rw [ledByPlayer, ledByPlayer, hgated, hfed]

theorem rulesThatMay_any {q : Rule → Bool} (h : g.Reorders g') (type : String)
    (hq : ∀ {r r'}, r.Reorders r' → q r' = q r) :
    (g'.rulesThatMay type).any q = (g.rulesThatMay type).any q :=
  h.rules_filter_any (fun hr => hr.mayFire_eq type) hq

theorem rulesThatMay_isEmpty (h : g.Reorders g') (type : String) :
    (g'.rulesThatMay type).isEmpty = (g.rulesThatMay type).isEmpty :=
  h.rules_filter_isEmpty fun hr => hr.mayFire_eq type

/-! ## The checks -/

theorem outcomesExist_eq (h : g.Reorders g') : outcomesExist g' = outcomesExist g := by
  rw [outcomesExist, outcomesExist, h.rulesThatMay_isEmpty, h.rulesThatMay_isEmpty]

theorem playerAction_verdicts (h : g.Reorders g') :
    (playerAction g').map Finding.verdict = (playerAction g).map Finding.verdict := by
  have hled := h.rulesThatMay_any "success" fun hr => hr.ledByPlayer_eq (.dragOnly g.dragged) (g := g)
  have hempty := h.rulesThatMay_isEmpty "success"
  rw [playerAction, playerAction, checkPlayerAction, checkPlayerAction, h.ledByPlayer_dragged]
  rw [hled, verdicts_ite, verdicts_ite]
  congr 1
  -- the finding names the first winning rule, which counts for nothing
  cases hnew : g'.rulesThatMay "success" <;> cases hold : g.rulesThatMay "success" <;>
    first | rfl | simp [hnew, hold] at hempty

theorem automaticOutcomes_perm (h : g.Reorders g') :
    ((automaticOutcomes g').map Finding.verdict).Perm ((automaticOutcomes g).map Finding.verdict) := by
  have hlosing := h.rulesThatMay_any "failure" fun hr => hr.gatedByPlayer_eq .any
  have hwinning := h.rulesThatMay_any "success" fun hr => hr.ledByPlayer_eq .any (g := g)
  have hsuccess : automaticSuccess g' = automaticSuccess g := by
    funext r
    rw [automaticSuccess, automaticSuccess, h.fedByPlayer_eq]
  have hgated (type : String) {see : Rule → List Finding}
      (hsee : ∀ {r r'}, r.Reorders r' → (see r').map Finding.verdict = (see r).map Finding.verdict) :
      (((gated (g'.rulesThatMay type)).flatMap see).map Finding.verdict).Perm
        (((gated (g.rulesThatMay type)).flatMap see).map Finding.verdict) := by
    rw [List.map_flatMap, List.map_flatMap, gated, gated, rulesThatMay, rulesThatMay,
      List.filter_filter, List.filter_filter]
    exact h.rules_filter_flatMap (fun hr => by rw [hr.conditions_isEmpty, hr.mayFire_eq])
      fun hr => by rw [hsee hr]
  simp only [automaticOutcomes, automaticFailures, h.ledByPlayer_eq, hlosing, hwinning, hsuccess,
    List.map_append, verdicts_ite]
  apply List.Perm.append
  · split
    · exact .refl _
    · exact hgated "success" fun hr => hr.automaticSuccess_verdicts
  · split
    · exact .refl _
    · exact hgated "failure" fun hr => hr.automaticFailure_verdicts

theorem instantOutcomes_perm (h : g.Reorders g') :
    ((instantOutcomes g').map Finding.verdict).Perm ((instantOutcomes g).map Finding.verdict) := by
  have hbrings : bringsAtStart g' = bringsAtStart g := by
    rw [h.withRules]
    rfl
  rw [verdicts_instantOutcomes, verdicts_instantOutcomes, hbrings]
  exact h.rules_flatMap fun hr => by rw [hr.bringsAtStart_eq, hr.bringsAtStart_eq]

theorem counterUses_verdicts (h : g.Reorders g') :
    (counterUses g').map Finding.verdict = (counterUses g).map Finding.verdict := by
  have hcounters : g'.counters = g.counters := by rw [h.withRules]
  simp only [verdicts_counterUses, hcounters, h.counterReaders_isEmpty, h.counterWriters_isEmpty]

theorem successReachability_perm (h : g.Reorders g') :
    ((successReachability g').map Finding.verdict).Perm
      ((successReachability g).map Finding.verdict) := by
  have hneeds (r : Rule) (c : Condition) : (successNeeds g' r [] c).map Finding.verdict =
      (successNeeds g r [] c).map Finding.verdict := by
    simp only [successNeeds, h.counterWriters_isEmpty, h.flagWriters_isEmpty, h.visibilityWriters_isEmpty]
  simp only [verdicts_successReachability, hneeds]
  refine h.rules_flatMap fun {r r'} hr => ?_
  rw [hr.mayFire_eq]
  split
  · simp only [hr.successNeeds_eq]
    exact hr.conditions_perm.flatMap_right _
  · exact .refl _

theorem references_perm (h : g.Reorders g') :
    ((references g').map Finding.verdict).Perm ((references g).map Finding.verdict) := by
  have hlayout : indexed (placementReference g') 0 g'.layout =
      indexed (placementReference g) 0 g.layout := by
    rw [h.withRules]
    rfl
  have hrule : ruleReferences g' = ruleReferences g := by
    rw [h.withRules]
    rfl
  have hplace (index : Nat) (r : Rule) : (ruleReferences g index r).map Finding.verdict =
      (ruleReferences g 0 r).map Finding.verdict := by
    rw [verdicts_ruleReferences, verdicts_ruleReferences]
  rw [references, references, hlayout, hrule, List.map_append, List.map_append,
    verdicts_indexed hplace, verdicts_indexed hplace]
  exact (h.rules_flatMap fun hr => hr.ruleReferences_perm).append_left _

end Game.Reorders

end TouchGame

import TouchGame.Proofs.Check.Findings
import TouchGame.Proofs.Mending.Game

/-!
# Verdicts of findings

What a finding counts for is its severity and its code. The checks of a part of a rule-set give the
same verdicts wherever the part stands, so the verdicts of a list are those of its items, put one
behind the other.

* `Finding.verdict` : the severity and the label of a finding.
* `verdicts_indexed` : the verdicts of a list of parts.
* `verdicts_condition`, `verdicts_action`, `verdicts_rule` : the fieldwise checks see no positions.
* `verdicts_instantOutcome`, `verdicts_successNeeds` : when the checks between rules find something.
-/

namespace TouchGame

namespace Finding

/-- What a finding counts for: its severity and its label. -/
def verdict (f : Finding) : Severity × Label :=
  (f.severity, f.label)

@[simp] theorem verdict_critical (c : Code) (message fix : String) (l : Location) :
    (critical c message fix l).verdict = (.critical, .listed c) := rfl

@[simp] theorem verdict_warning (c : Code) (message fix : String) (l : Location) :
    (warning c message fix l).verdict = (.warning, .listed c) := rfl

end Finding

namespace Check

open Mending

theorem accepts_of_perm {fs fs' : List Finding}
    (h : (fs'.map Finding.verdict).Perm (fs.map Finding.verdict)) : accepts fs' = accepts fs := by
  have haccepts (list : List Finding) :
      accepts list = !(list.map Finding.verdict).any (·.1 == .critical) := by
    rw [List.any_map]
    rfl
  rw [haccepts, haccepts, h.any_eq]

theorem accepts_iff {fs : List Finding} : accepts fs = true ↔ ∀ f ∈ fs, f.isCritical = false := by
  simp [accepts]

@[simp] theorem verdicts_ite {p : Prop} [Decidable p] (xs ys : List Finding) :
    (if p then xs else ys).map Finding.verdict =
      if p then xs.map Finding.verdict else ys.map Finding.verdict :=
  apply_ite (List.map Finding.verdict) p xs ys

@[simp] theorem verdicts_ifPresent (value : Option Number) (check : Number → List Finding) :
    (ifPresent value check).map Finding.verdict =
      (value.map fun n => (check n).map Finding.verdict).getD [] := by
  cases value <;> rfl

theorem verdicts_map {α : Type} {find : α → Finding} {verdict : Severity × Label}
    (h : ∀ a, (find a).verdict = verdict) (list : List α) :
    (list.map find).map Finding.verdict = List.replicate list.length verdict := by
  rw [List.map_map, ← List.map_const']
  exact List.map_congr_left fun a _ => h a

theorem verdicts_indexed {α : Type} {check : Nat → α → List Finding}
    {see : α → List (Severity × Label)} (h : ∀ i a, (check i a).map Finding.verdict = see a)
    (start : Nat) (list : List α) :
    (indexed check start list).map Finding.verdict = list.flatMap see := by
  induction list generalizing start with
  | nil => rfl
  | cons a rest ih => rw [indexed, List.map_append, h, ih, List.flatMap_cons]

/-! ## The fieldwise check -/

section Fieldwise

variable {scope : Scope} {v : Vocabulary}

theorem verdicts_enumerated (field : String) (value : Slot String) (path path' : Path)
    (label : String) : (enumerated scope field value path label).map Finding.verdict =
      (enumerated scope field value path' label).map Finding.verdict := by
  unfold enumerated
  split
  · rfl
  · simp only [verdicts_ite, List.map_cons, List.map_nil, Finding.verdict_critical]

theorem verdicts_conditionFields (path path' : Path) (c : Condition) :
    (conditionFields scope path c).map Finding.verdict =
      (conditionFields scope path' c).map Finding.verdict := by
  cases c with
  | random chance seed => cases chance <;> simp [conditionFields, plainConditionFields, probability]
  | position target area region =>
    cases region <;> simp [conditionFields, regionFields, regionCoordinate, needsTarget, Slot.get?]
  | _ => simp [conditionFields, plainConditionFields, needsTarget, timerSeconds, timerInterval]

theorem verdicts_condition (path path' : Path) (c : Condition) :
    (condition scope path c).map Finding.verdict = (condition scope path' c).map Finding.verdict := by
  unfold condition conditionEnumFindings
  split
  · rw [List.map_append, List.map_append, List.map_flatMap, List.map_flatMap,
      verdicts_conditionFields path path']
    congr 2
    funext entry
    obtain ⟨field, value⟩ := entry
    apply verdicts_enumerated
  · rfl

theorem verdicts_actionFields (path path' : Path) (a : Action) :
    (actionFields scope path a).map Finding.verdict =
      (actionFields scope path' a).map Finding.verdict := by
  cases a with
  | addScore points => cases points <;> simp [actionFields, plainActionFields, awardedPoints]
  | move target movement =>
    cases movement with
    | value m =>
      have hgoal : (goalFields scope (path ++ [.name "movement"]) m.target.get?).map Finding.verdict =
          (goalFields scope (path' ++ [.name "movement"]) m.target.get?).map Finding.verdict := by
        unfold goalFields
        split
        · simp [axes, goalCoordinate]
        · rfl
      simp [actionFields, movement, movementPace, movementSpeed, positiveDuration, hgoal]
    | _ => rfl
  | effect target e =>
    cases e <;> simp [actionFields, plainActionFields, effect, effectDuration, effectAmount]
  | _ => simp [actionFields, plainActionFields, needsFlag, positiveDuration, soundVolume]

theorem verdicts_ownAction (path path' : Path) (a : Action) :
    (ownAction scope path a).map Finding.verdict =
      (ownAction scope path' a).map Finding.verdict := by
  have henums : (actionEnumFindings scope path a).map Finding.verdict =
      (actionEnumFindings scope path' a).map Finding.verdict := by
    rw [actionEnumFindings, actionEnumFindings, enumFindings, enumFindings, List.map_append,
      List.map_append, List.map_flatMap, List.map_flatMap]
    congr 1
    · congr 1
      funext entry
      obtain ⟨keys, value⟩ := entry
      apply verdicts_enumerated
    · simp [needsObject]
  rw [ownAction_eq, ownAction_eq, List.map_append, List.map_append, henums,
    verdicts_actionFields path path']

/-- The verdicts of an option of a choice: of its chance, then of its action. -/
def optionVerdicts (scope : Scope) (o : ChoiceOption Action) : List (Severity × Label) :=
  (optionFindings scope [] 0 o).map Finding.verdict

theorem verdicts_action (path path' : Path) (a : Action) :
    (action scope path a).map Finding.verdict = (action scope path' a).map Finding.verdict := by
  induction a using Action.nested_induction generalizing path path' with
  | plain a hplain =>
    rw [action_of_plain hplain, action_of_plain hplain, ← ownAction_eq, ← ownAction_eq]
    split
    · exact verdicts_ownAction path path' a
    · rfl
  | choice options mode weights ih =>
    by_cases hsupported : scope.vocabulary.hasAction (.str "randomAction") = true
    · rw [action_choice options mode weights hsupported, action_choice options mode weights hsupported,
        List.map_append, List.map_append, verdicts_ownAction path path']
      congr 1
      -- The options are checked in order: the list is taken apart along with its positions.
      generalize 0 = start
      induction options generalizing start with
      | nil => rfl
      | cons o rest ihrest =>
        have hfirst : (optionFindings scope path start o).map Finding.verdict =
            (optionFindings scope path' start o).map Finding.verdict := by
          rw [optionFindings, optionFindings, List.map_append, List.map_append,
            ih o List.mem_cons_self _ (optionPath path' start ++ [.name "action"])]
          simp [probability]
        rw [indexed, indexed, List.map_append, List.map_append, hfirst,
          ihrest fun q hq => ih q (List.mem_cons_of_mem o hq)]
    · rw [action, action, if_neg hsupported, if_neg hsupported]
      rfl

theorem verdicts_option (path : Path) (index : Nat) (o : ChoiceOption Action) :
    (optionFindings scope path index o).map Finding.verdict = optionVerdicts scope o := by
  rw [optionVerdicts, optionFindings, optionFindings, List.map_append, List.map_append,
    verdicts_action _ (optionPath [] 0 ++ [.name "action"])]
  simp [probability]

theorem verdicts_choice (path : Path) (options : List (ChoiceOption Action)) (mode : Slot String)
    (weights : Slot (List Number)) (h : scope.vocabulary.hasAction (.str "randomAction") = true) :
    (action scope path (.choice options mode weights)).map Finding.verdict =
      (ownAction scope path (.choice [] mode .empty)).map Finding.verdict ++
        options.flatMap (optionVerdicts scope) := by
  rw [action_choice options mode weights h, List.map_append,
    verdicts_indexed fun index o => verdicts_option path index o]

theorem verdicts_rule (index : Nat) (r : Rule) : (rule v index r).map Finding.verdict =
    (operatorFindings v 0 r).map Finding.verdict ++
      (r.conditions.flatMap (fun c => (condition ⟨v, r⟩ [] c).map Finding.verdict) ++
        r.actions.flatMap fun a => (action ⟨v, r⟩ [] a).map Finding.verdict) := by
  have hoperator : (operatorFindings v index r).map Finding.verdict =
      (operatorFindings v 0 r).map Finding.verdict := by
    unfold operatorFindings
    split
    · apply verdicts_enumerated
    · rfl
  rw [rule_findings, List.map_append, List.map_append, hoperator,
    verdicts_indexed fun _ c => verdicts_condition _ [] c,
    verdicts_indexed fun _ a => verdicts_action _ [] a, List.append_assoc]

end Fieldwise

/-! ## The check between rules -/

section Rulewise

variable {g : Game}

theorem verdicts_objectField (field : Slot String) (message message' : String → String)
    (location location' : String → Location) :
    (objectField g field message location).map Finding.verdict =
      (objectField g field message' location').map Finding.verdict := by
  unfold objectField
  split
  · simp [danglingObject]
  · rfl

theorem verdicts_counterField (r r' : Rule) (field : Slot String) (path path' : Path) :
    (counterField g r field path).map Finding.verdict =
      (counterField g r' field path').map Finding.verdict := by
  unfold counterField
  split
  · simp
  · rfl

theorem verdicts_soundField (r r' : Rule) (field : Slot String) (path path' : Path) :
    (soundField g r field path).map Finding.verdict =
      (soundField g r' field path').map Finding.verdict := by
  unfold soundField
  split
  · simp
  · rfl

theorem verdicts_conditionReferences (r r' : Rule) (path path' : Path) (c : Condition) :
    (conditionReferences g r path c).map Finding.verdict =
      (conditionReferences g r' path' c).map Finding.verdict := by
  unfold conditionReferences
  split
  · apply verdicts_counterField
  · unfold targetReference
    split
    · apply verdicts_objectField
    · rfl

theorem verdicts_actionReferences (r r' : Rule) (path path' : Path) (a : Action) :
    (actionReferences g r path a).map Finding.verdict =
      (actionReferences g r' path' a).map Finding.verdict := by
  unfold actionReferences
  rw [List.map_append, List.map_append]
  congr 1
  · split
    · apply verdicts_objectField
    · rfl
  · split
    · split
      · apply verdicts_objectField
      · rfl
    · apply verdicts_counterField
    · apply verdicts_soundField
    · apply verdicts_soundField
    · rfl

/-- The verdicts about the references of a rule: of its object, its conditions, and all its actions. -/
theorem verdicts_ruleReferences (index : Nat) (r : Rule) :
    (ruleReferences g index r).map Finding.verdict =
      (objectField g r.targetObject id fun _ => .none).map Finding.verdict ++
        (r.conditions.flatMap (fun c => (conditionReferences g r [] c).map Finding.verdict) ++
          r.allActions.flatMap fun a => (actionReferences g r [] a).map Finding.verdict) := by
  have hpicked (path : Path) (a : Action) : (pickedReferences g r path a).map Finding.verdict =
      (Rule.withPicks a).flatMap fun b => (actionReferences g r [] b).map Finding.verdict := by
    rw [pickedReferences, List.map_append, Rule.withPicks, List.flatMap_cons,
      verdicts_actionReferences r r path [],
      verdicts_indexed fun _ b => verdicts_actionReferences r r _ [] b]
  rw [ruleReferences, ruleReference, List.map_append, List.map_append, Rule.allActions, List.flatMap_assoc,
    verdicts_objectField _ _ id _ fun _ => .none,
    verdicts_indexed fun _ c => verdicts_conditionReferences r r _ [] c,
    verdicts_indexed fun _ a => hpicked _ a, List.append_assoc]

theorem isSome_firstTrue? (covers : Comparison → Bool) (index : Nat) (conditions : List Condition) :
    (firstTrue? g covers index conditions).isSome =
      conditions.any fun c => (holdsAtStart? g covers c).isSome := by
  induction conditions generalizing index with
  | nil => rfl
  | cons c rest ih =>
    rw [firstTrue?, List.any_cons, ← ih (index + 1)]
    cases holdsAtStart? g covers c <;> rfl

/-- Whether a rule brings an outcome at the start: it may fire it, and has no condition or one that
holds at the start. -/
def bringsAtStart (g : Game) (outcome : InstantOutcome) (r : Rule) : Bool :=
  r.mayFire outcome.type &&
    (r.conditions.isEmpty || r.conditions.any fun c => (holdsAtStart? g outcome.covers c).isSome)

theorem verdicts_instantOutcome (index : Nat) (r : Rule) (outcome : InstantOutcome) :
    (instantOutcome g index r outcome).map Finding.verdict =
      if bringsAtStart g outcome r then [(.critical, .listed outcome.code)] else [] := by
  rw [bringsAtStart, ← isSome_firstTrue? outcome.covers 0, instantOutcome]
  cases r.mayFire outcome.type with
  | false => rfl
  | true =>
    cases r.conditions.isEmpty with
    | true => rfl
    | false => cases firstTrue? g outcome.covers 0 r.conditions <;> rfl

theorem verdicts_instantOutcomes : (instantOutcomes g).map Finding.verdict =
    g.rules.flatMap fun r =>
      (if bringsAtStart g instantWin r then [(.critical, .listed .instantWin)] else []) ++
        if bringsAtStart g instantLose r then [(.critical, .listed .instantLose)] else [] := by
  refine verdicts_indexed (fun index r => ?_) 0 g.rules
  rw [List.map_append, verdicts_instantOutcome, verdicts_instantOutcome]
  rfl

/-- What is said of a counter that no condition reads, or that no action changes. -/
def usageVerdicts (unread unchanged : Bool) : List (Severity × Label) :=
  match unread, unchanged with
  | true, true => [(.warning, .listed .unusedCounter)]
  | true, false => [(.warning, .listed .counterNeverChecked)]
  | false, true => [(.critical, .listed .counterNeverModified)]
  | false, false => []

theorem verdicts_counterUsage (index : Nat) (c : Counter) :
    (counterUsage g index c).map Finding.verdict =
      usageVerdicts (g.counterReaders c.id).isEmpty (g.counterWriters c.id).isEmpty := by
  rw [counterUsage]
  unfold counterUse
  cases g.counterReaders c.id <;> cases g.counterWriters c.id <;> rfl

theorem verdicts_counterUses : (counterUses g).map Finding.verdict =
    g.counters.flatMap fun c =>
      usageVerdicts (g.counterReaders c.id).isEmpty (g.counterWriters c.id).isEmpty :=
  verdicts_indexed verdicts_counterUsage 0 g.counters

theorem verdicts_successNeeds (r : Rule) (path path' : Path) (c : Condition) :
    (successNeeds g r path c).map Finding.verdict =
      (successNeeds g r path' c).map Finding.verdict := by
  unfold successNeeds
  split
  iterate 3
    split
    · simp
    · rfl
  · rfl

theorem verdicts_successReachability : (successReachability g).map Finding.verdict =
    g.rules.flatMap fun r => if r.mayFire "success" then
      r.conditions.flatMap fun c => (successNeeds g r [] c).map Finding.verdict else [] := by
  refine verdicts_indexed (fun index r => ?_) 0 g.rules
  rw [verdicts_ite, verdicts_indexed fun _ c => verdicts_successNeeds r _ [] c]
  rfl

end Rulewise

end Check

end TouchGame

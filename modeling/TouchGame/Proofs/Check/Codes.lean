import TouchGame.Proofs.Mending.Action
import TouchGame.Repair.Category
import TouchGame.Repair.Definitions

/-!
# Codes of checks

Every finding of a check has a code of the catalogue, and each check has few codes. So the code of a
finding tells which check made it, and how it can be mended.

* `mem_indexed`, `forall_mem_ifPresent` : the findings of checks that go through a list or a field.
* `Coded` : the findings of a list have codes of a list.
* `fieldwise_coded`, `references_coded`, `counterUses_coded`, … : the codes of each check.
* `fieldCodes_not_definitional`, `ruleCodes_not_autoFixable`, … : what a repair does about them.
-/

namespace TouchGame.Check

/-! ## Findings of lists -/

section Lists

variable {f : Finding} {holds : Finding → Prop}

theorem getElem?_of_mem_indexed {α : Type} {check : Nat → α → List Finding} {start : Nat} {list : List α}
    (h : f ∈ indexed check start list) :
    ∃ (i : Nat) (a : α), list[i]? = some a ∧ f ∈ check (start + i) a := by
  induction list generalizing start with
  | nil => simp [indexed] at h
  | cons a rest ih =>
    rw [indexed, List.mem_append] at h
    rcases h with h | h
    · exact ⟨0, a, rfl, h⟩
    · obtain ⟨i, b, hb, hf⟩ := ih h
      exact ⟨i + 1, b, hb, by rwa [Nat.add_right_comm] at hf⟩

theorem mem_indexed_of_getElem? {α : Type} {check : Nat → α → List Finding} {start i : Nat}
    {list : List α} {a : α} (ha : list[i]? = some a) (hf : f ∈ check (start + i) a) :
    f ∈ indexed check start list := by
  induction list generalizing start i with
  | nil => cases ha
  | cons b rest ih =>
    rw [indexed, List.mem_append]
    cases i with
    | zero =>
      cases ha
      exact .inl hf
    | succ i =>
      exact .inr (ih ha (by rwa [Nat.add_right_comm]))

theorem mem_indexed {α : Type} {check : Nat → α → List Finding} {start : Nat} {list : List α}
    (h : f ∈ indexed check start list) : ∃ i, ∃ a ∈ list, f ∈ check i a := by
  obtain ⟨i, a, ha, hf⟩ := getElem?_of_mem_indexed h
  exact ⟨start + i, a, List.mem_of_getElem? ha, hf⟩

theorem forall_mem_indexed {α : Type} {check : Nat → α → List Finding} {list : List α}
    (h : ∀ (i : Nat) a, list[i]? = some a → ∀ f ∈ check i a, holds f) :
    ∀ f ∈ indexed check 0 list, holds f := by
  intro f hf
  obtain ⟨i, a, ha, hf⟩ := getElem?_of_mem_indexed hf
  rw [Nat.zero_add] at hf
  exact h i a ha f hf

theorem forall_mem_ifPresent {value : Option Number} {check : Number → List Finding}
    (h : ∀ n, ∀ f ∈ check n, holds f) : ∀ f ∈ ifPresent value check, holds f := by
  cases value with
  | none => simp [ifPresent]
  | some n => exact h n

end Lists

/-! ## Codes of findings -/

theorem code?_eq_some {l : Label} {c : Code} : l.code? = some c ↔ l = .listed c := by
  cases l <;> simp [Label.code?]

def Coded (codes : List Code) (findings : List Finding) : Prop :=
  ∀ f ∈ findings, ∃ c ∈ codes, f.label = .listed c

section Coded

variable {codes more : List Code} {findings xs ys : List Finding}

@[simp] theorem label_critical (c : Code) (message fix : String) (location : Location) :
    (Finding.critical c message fix location).label = .listed c := rfl

@[simp] theorem label_warning (c : Code) (message fix : String) (location : Location) :
    (Finding.warning c message fix location).label = .listed c := rfl

@[simp] theorem coded_nil : Coded codes [] := by
  simp [Coded]

@[simp] theorem coded_cons (f : Finding) :
    Coded codes (f :: findings) ↔ (∃ c ∈ codes, f.label = .listed c) ∧ Coded codes findings :=
  List.forall_mem_cons

@[simp] theorem coded_append : Coded codes (xs ++ ys) ↔ Coded codes xs ∧ Coded codes ys :=
  List.forall_mem_append

theorem coded_ite {p : Prop} [Decidable p] (hxs : Coded codes xs) (hys : Coded codes ys) :
    Coded codes (if p then xs else ys) := by
  split
  · exact hxs
  · exact hys

theorem coded_flatMap {α : Type} {list : List α} {check : α → List Finding}
    (h : ∀ a ∈ list, Coded codes (check a)) : Coded codes (list.flatMap check) :=
  List.forall_mem_flatMap.mpr h

theorem coded_map {α : Type} {list : List α} {say : α → Finding}
    (h : ∀ a, ∃ c ∈ codes, (say a).label = .listed c) : Coded codes (list.map say) :=
  List.forall_mem_map.mpr fun a _ => h a

theorem coded_indexed {α : Type} {check : Nat → α → List Finding} {start : Nat} {list : List α}
    (h : ∀ i a, Coded codes (check i a)) : Coded codes (indexed check start list) := by
  intro f hf
  obtain ⟨i, a, _, hf⟩ := mem_indexed hf
  exact h i a f hf

theorem coded_ifPresent {value : Option Number} {check : Number → List Finding}
    (h : ∀ n, Coded codes (check n)) : Coded codes (ifPresent value check) :=
  forall_mem_ifPresent h

theorem Coded.mono (h : Coded codes findings) (hmore : ∀ c ∈ codes, c ∈ more) :
    Coded more findings := by
  intro f hf
  obtain ⟨c, hc, hlabel⟩ := h f hf
  exact ⟨c, hmore c hc, hlabel⟩

end Coded

/-! ## The fieldwise check -/

/-- The codes of the fieldwise check. -/
def fieldCodes : List Code := [
  .invalidConditionType, .invalidActionType, .invalidParameterValue, .invalidCoordinates,
  .invalidScale, .extremeScale, .invalidSpeed, .unusualSpeed, .invalidTimeSeconds,
  .invalidTimeInterval, .invalidVolume, .invalidProbability, .invalidDuration,
  .invalidEffectDuration, .longEffectDuration, .invalidScaleAmount, .largeScaleAmount,
  .negativePoints, .missingPoints, .missingProbability, .missingCounterValue, .missingCounterName,
  .missingTargetId, .missingSoundId, .missingFlagId, .missingForce, .missingImpulse,
  .missingAnimationIndex, .duplicateRuleId, .duplicateLayoutObject]

section Fieldwise

variable (scope : Scope) (path : Path)

theorem enumerated_coded (field : String) (value : Slot String) (label : String) :
    Coded fieldCodes (enumerated scope field value path label) := by
  unfold enumerated
  split
  · exact coded_nil
  · exact coded_ite (by simp [fieldCodes]) coded_nil

theorem probability_coded (n : Number) : Coded fieldCodes (probability scope path n) := by
  unfold probability
  split <;> simp [fieldCodes]

theorem needsTarget_coded (type : String) (target : Slot String) :
    Coded fieldCodes (needsTarget scope path type target) := by
  unfold needsTarget
  split <;> simp [fieldCodes]

theorem timerSeconds_coded (n : Number) : Coded fieldCodes (timerSeconds scope path n) := by
  unfold timerSeconds
  dsimp only
  repeat' split
  all_goals simp [fieldCodes]

theorem timerInterval_coded (n : Number) : Coded fieldCodes (timerInterval scope path n) := by
  unfold timerInterval
  dsimp only
  repeat' split
  all_goals simp [fieldCodes]

theorem regionCoordinate_coded (axis : String) (n : Number) :
    Coded fieldCodes (regionCoordinate scope path axis n) := by
  unfold regionCoordinate
  split <;> simp [fieldCodes]

theorem conditionFields_coded (c : Condition) : Coded fieldCodes (conditionFields scope path c) := by
  cases c with
  | counter name comparison value =>
    simp only [conditionFields, plainConditionFields, coded_append]
    constructor <;> split <;> simp [fieldCodes]
  | time timeType seconds interval =>
    simp only [conditionFields, plainConditionFields, coded_append]
    exact ⟨coded_ifPresent (timerSeconds_coded scope path),
      coded_ifPresent (timerInterval_coded scope path)⟩
  | flag flag flagState =>
    simp only [conditionFields, plainConditionFields]
    split <;> simp [fieldCodes]
  | random chance seed =>
    cases chance with
    | none => simp [conditionFields, plainConditionFields, fieldCodes]
    | some n => exact probability_coded scope _ n
  | position target area region =>
    refine coded_append.mpr ⟨?_, needsTarget_coded scope path _ target⟩
    cases region.get? with
    | none => exact coded_nil
    | some r => exact coded_append.mpr ⟨regionCoordinate_coded scope path "x" r.x,
        regionCoordinate_coded scope path "y" r.y⟩
  | collision target => exact needsTarget_coded scope path _ target
  | objectState target => exact needsTarget_coded scope path _ target
  | _ => exact coded_nil

theorem condition_coded (c : Condition) : Coded fieldCodes (condition scope path c) := by
  unfold condition
  split
  · rw [coded_append]
    exact ⟨coded_flatMap fun _ _ => enumerated_coded scope _ _ _ _, conditionFields_coded scope path c⟩
  · simp [unsupportedCondition, fieldCodes]

theorem positiveDuration_coded (n : Number) : Coded fieldCodes (positiveDuration scope path n) := by
  unfold positiveDuration
  split <;> simp [fieldCodes]

theorem movementSpeed_coded (n : Number) : Coded fieldCodes (movementSpeed scope path n) := by
  unfold movementSpeed
  dsimp only
  repeat' split
  all_goals simp [fieldCodes]

theorem goalCoordinate_coded (axis : String) (n : Number) :
    Coded fieldCodes (goalCoordinate scope path axis n) := by
  unfold goalCoordinate
  split <;> simp [fieldCodes]

theorem movement_coded (m : Movement) : Coded fieldCodes (movement scope path m) := by
  simp only [movement, movementPace, coded_append]
  refine ⟨⟨coded_ifPresent (movementSpeed_coded scope _),
    coded_ifPresent (positiveDuration_coded scope _)⟩, ?_⟩
  unfold goalFields
  split
  · exact coded_flatMap fun axis _ => goalCoordinate_coded scope path axis.1 axis.2
  · exact coded_nil

theorem effectDuration_coded (n : Number) : Coded fieldCodes (effectDuration scope path n) := by
  unfold effectDuration
  repeat' split
  all_goals simp [fieldCodes]

theorem effectAmount_coded (n : Number) : Coded fieldCodes (effectAmount scope path n) := by
  unfold effectAmount
  repeat' split
  all_goals simp [fieldCodes]

theorem awardedPoints_coded (n : Number) : Coded fieldCodes (awardedPoints scope path n) := by
  unfold awardedPoints
  split <;> simp [fieldCodes]

theorem soundVolume_coded (n : Number) : Coded fieldCodes (soundVolume scope path n) := by
  unfold soundVolume
  split <;> simp [fieldCodes]

theorem needsFlag_coded (type : String) (flag : Slot String) :
    Coded fieldCodes (needsFlag scope path type flag) := by
  unfold needsFlag
  split <;> simp [fieldCodes]

theorem actionFields_coded (a : Action) : Coded fieldCodes (actionFields scope path a) := by
  cases a with
  | move target movement =>
    cases movement with
    | value m => exact movement_coded scope _ m
    | _ => exact coded_nil
  | hide => exact coded_ifPresent (positiveDuration_coded scope _)
  | reveal => exact coded_ifPresent (positiveDuration_coded scope _)
  | counter name operation value =>
    simp only [actionFields, plainActionFields, coded_append]
    constructor <;> split <;> simp [fieldCodes]
  | addScore points =>
    cases points with
    | none => simp [actionFields, plainActionFields, fieldCodes]
    | some n => exact awardedPoints_coded scope _ n
  | effect target effect =>
    cases effect with
    | value e =>
      exact coded_append.mpr ⟨coded_ifPresent (effectDuration_coded scope _),
        coded_ifPresent (effectAmount_coded scope _)⟩
    | _ => exact coded_nil
  | setFlag flag => exact needsFlag_coded scope path _ flag
  | toggleFlag flag => exact needsFlag_coded scope path _ flag
  | playSound sound volume =>
    simp only [actionFields, plainActionFields, coded_append]
    refine ⟨?_, coded_ifPresent (soundVolume_coded scope _)⟩
    split <;> simp [fieldCodes]
  | switchAnimation =>
    simp only [actionFields, plainActionFields]
    split <;> simp [fieldCodes]
  | applyForce =>
    simp only [actionFields, plainActionFields]
    split <;> simp [fieldCodes]
  | applyImpulse =>
    simp only [actionFields, plainActionFields]
    split <;> simp [fieldCodes]
  | _ => exact coded_nil

theorem ownAction_coded (a : Action) : Coded fieldCodes (ownAction scope path a) := by
  unfold ownAction enumFindings needsObject
  simp only [coded_append]
  refine ⟨⟨coded_flatMap fun _ _ => enumerated_coded scope _ _ _ _, ?_⟩, actionFields_coded scope path a⟩
  split <;> simp [fieldCodes]

theorem unsupportedAction_coded (a : Action) : Coded fieldCodes [unsupportedAction scope path a] := by
  simp [unsupportedAction, fieldCodes]

theorem action_coded (a : Action) : ∀ path, Coded fieldCodes (action scope path a) := by
  induction a using Action.nested_induction with
  | plain a hplain =>
    intro path
    rw [action]
    · exact coded_ite (ownAction_coded scope path a) (unsupportedAction_coded scope path a)
    · exact Action.ne_choice hplain
  | choice options mode weights ih =>
    intro path
    have hoptions (index : Nat) : Coded fieldCodes (choiceOptions scope path index options) := by
      induction options generalizing index with
      | nil => exact coded_nil
      | cons o rest ihrest =>
        rw [choiceOptions, coded_append, coded_append]
        refine ⟨⟨coded_ifPresent (probability_coded scope _), ih o List.mem_cons_self _⟩, ?_⟩
        exact ihrest (fun q hq => ih q (List.mem_cons_of_mem _ hq)) _
    rw [action]
    refine coded_ite ?_ (unsupportedAction_coded scope path _)
    rw [coded_append]
    exact ⟨ownAction_coded scope path _, hoptions 0⟩

theorem rule_coded (v : Vocabulary) (index : Nat) (r : Rule) : Coded fieldCodes (rule v index r) := by
  unfold rule triggerOperator
  simp only [coded_append]
  refine ⟨⟨?_, coded_indexed fun i c => condition_coded _ _ c⟩,
    coded_indexed fun i a => action_coded _ a _⟩
  split
  · exact enumerated_coded _ _ _ _ _
  · exact coded_nil

theorem placedCoordinate_coded (object axis : String) (n : Number) :
    Coded fieldCodes (placedCoordinate path object axis n) := by
  unfold placedCoordinate
  split <;> simp [fieldCodes]

theorem placedScale_coded (object axis : String) (n : Number) :
    Coded fieldCodes (placedScale path object axis n) := by
  unfold placedScale
  dsimp only
  repeat' split
  all_goals simp [fieldCodes]

theorem pointFindings_coded {check : String → Number → List Finding}
    (h : ∀ axis n, Coded fieldCodes (check axis n)) (point : Option Point) :
    Coded fieldCodes (pointFindings check point) := by
  cases point with
  | none => exact coded_nil
  | some p => exact coded_flatMap fun axis _ => h axis.1 axis.2

theorem placement_coded (index : Nat) (p : Placement) : Coded fieldCodes (placement index p) := by
  unfold placement
  rw [coded_append]
  exact ⟨coded_flatMap fun axis _ => placedCoordinate_coded _ _ axis.1 axis.2,
    pointFindings_coded (placedScale_coded _ _) _⟩

theorem initialCoordinate_coded (index : Nat) (object axis : String) (n : Number) :
    Coded fieldCodes (initialCoordinate index object axis n) := by
  unfold initialCoordinate
  split <;> simp [fieldCodes]

theorem fieldwise_coded (v : Vocabulary) (g : Game) : Coded fieldCodes (fieldwise v g) := by
  unfold fieldwise layout placedTwice initialPositions ruleIds
  simp only [coded_append]
  refine ⟨⟨⟨coded_map fun _ => ?_, coded_indexed placement_coded, coded_map fun _ => ?_⟩,
    coded_indexed fun index o => pointFindings_coded (initialCoordinate_coded index o.id) _⟩,
    coded_indexed (rule_coded v)⟩
  · simp [fieldCodes]
  · simp [fieldCodes]

end Fieldwise

/-! ## The check between rules -/

/-- The codes of the check of references. -/
def referenceCodes : List Code := [.invalidObjectId, .invalidCounterName, .undefinedSoundId]

def counterCodes : List Code := [.unusedCounter, .counterNeverChecked, .counterNeverModified]

/-- The codes of the other checks between rules. -/
def outcomeCodes : List Code := [
  .noSuccess, .noFailure, .instantWin, .instantLose, .autoSuccess, .autoFailure, .noPlayerAction,
  .sameRuleSuccessFailure, .sameRuleShowHide, .successFailureConflict, .showHideConflict,
  .counterConflict, .unreachableSuccess, .unreachableObjectState]

def quietCodes : List Code := [
  .noSuccess, .noFailure, .instantWin, .instantLose, .autoSuccess, .autoFailure, .noPlayerAction,
  .sameRuleSuccessFailure, .sameRuleShowHide, .unreachableSuccess, .unreachableObjectState]

/-- The codes among those that are not about outcomes without a player. -/
def plainCodes : List Code := [
  .noSuccess, .noFailure, .instantWin, .instantLose, .noPlayerAction, .sameRuleSuccessFailure,
  .sameRuleShowHide, .unreachableSuccess, .unreachableObjectState]

theorem Coded.loud {findings : List Finding} (h : Coded quietCodes findings) :
    Coded outcomeCodes findings :=
  h.mono (by decide)

theorem Coded.quiet {findings : List Finding} (h : Coded plainCodes findings) :
    Coded quietCodes findings :=
  h.mono (by decide)

section Rulewise

variable (g : Game)

theorem objectField_coded (field : Slot String) (message : String → String)
    (location : String → Location) : Coded referenceCodes (objectField g field message location) := by
  unfold objectField
  split
  · exact coded_ite coded_nil (by simp [danglingObject, referenceCodes])
  · exact coded_nil

theorem counterField_coded (r : Rule) (field : Slot String) (path : Path) :
    Coded referenceCodes (counterField g r field path) := by
  unfold counterField
  split
  · exact coded_ite coded_nil (by simp [referenceCodes])
  · exact coded_nil

theorem soundField_coded (r : Rule) (field : Slot String) (path : Path) :
    Coded referenceCodes (soundField g r field path) := by
  unfold soundField
  split
  · exact coded_ite coded_nil (by simp [referenceCodes])
  · exact coded_nil

theorem conditionReferences_coded (r : Rule) (path : Path) (c : Condition) :
    Coded referenceCodes (conditionReferences g r path c) := by
  unfold conditionReferences
  split
  · exact counterField_coded g r _ path
  · unfold targetReference
    split
    · exact objectField_coded g _ _ _
    · exact coded_nil

theorem actionReferences_coded (r : Rule) (path : Path) (a : Action) :
    Coded referenceCodes (actionReferences g r path a) := by
  unfold actionReferences
  rw [coded_append]
  constructor
  · split
    · exact objectField_coded g _ _ _
    · exact coded_nil
  · split
    · split
      · exact objectField_coded g _ _ _
      · exact coded_nil
    · exact counterField_coded g r _ path
    · exact soundField_coded g r _ path
    · exact soundField_coded g r _ path
    · exact coded_nil

theorem references_coded : Coded referenceCodes (references g) := by
  unfold references
  rw [coded_append]
  refine ⟨coded_indexed fun index p => ?_, coded_indexed fun index r => ?_⟩
  · unfold placementReference
    exact coded_ite coded_nil (by simp [danglingObject, referenceCodes])
  · unfold ruleReferences pickedReferences
    simp only [coded_append]
    refine ⟨⟨objectField_coded g _ _ _, coded_indexed fun i c => conditionReferences_coded g r _ c⟩,
      coded_indexed fun i a => ?_⟩
    rw [coded_append]
    exact ⟨actionReferences_coded g r _ a, coded_indexed fun j b => actionReferences_coded g r _ b⟩

theorem outcomesExist_plain : Coded plainCodes (outcomesExist g) := by
  unfold outcomesExist
  rw [coded_append]
  exact ⟨coded_ite (by simp [plainCodes]) coded_nil, coded_ite (by simp [plainCodes]) coded_nil⟩

theorem outcomesExist_coded : Coded quietCodes (outcomesExist g) :=
  (outcomesExist_plain g).quiet

theorem instantOutcome_coded (index : Nat) (r : Rule) (outcome : InstantOutcome) :
    Coded [outcome.code] (instantOutcome g index r outcome) := by
  unfold instantOutcome
  refine coded_ite coded_nil (coded_ite (by simp) ?_)
  split
  · simp
  · exact coded_nil

theorem instantOutcomes_plain : Coded plainCodes (instantOutcomes g) := by
  refine coded_indexed fun index r => coded_append.mpr ⟨?_, ?_⟩
  · exact (instantOutcome_coded g index r instantWin).mono (by simp [instantWin, plainCodes])
  · exact (instantOutcome_coded g index r instantLose).mono (by simp [instantLose, plainCodes])

theorem instantOutcomes_coded : Coded quietCodes (instantOutcomes g) :=
  (instantOutcomes_plain g).quiet

theorem automaticSuccess_coded (r : Rule) : Coded [.autoSuccess] (automaticSuccess g r) :=
  coded_ite (by simp [autoSuccess]) coded_nil

theorem automaticFailure_coded (r : Rule) : Coded [.autoFailure] (automaticFailure r) :=
  coded_ite (by simp) coded_nil

theorem automaticOutcomes_coded : Coded quietCodes (automaticOutcomes g) := by
  unfold automaticOutcomes automaticFailures
  rw [coded_append]
  constructor
  · refine coded_ite coded_nil (coded_flatMap fun r _ => ?_)
    exact (automaticSuccess_coded g r).mono (by simp [quietCodes])
  · refine coded_ite coded_nil (coded_flatMap fun r _ => ?_)
    exact (automaticFailure_coded r).mono (by simp [quietCodes])

theorem playerAction_plain : Coded plainCodes (playerAction g) := by
  unfold playerAction checkPlayerAction
  dsimp only
  refine coded_ite coded_nil ?_
  split
  · exact coded_nil
  · simp [plainCodes]

theorem playerAction_coded : Coded quietCodes (playerAction g) :=
  (playerAction_plain g).quiet

theorem ownConflicts_plain (r : Rule) : Coded plainCodes (ownConflicts r) := by
  unfold ownConflicts ownOutcomes ownVisibility
  rw [coded_append]
  exact ⟨coded_ite (by simp [plainCodes]) coded_nil, coded_map fun _ => by simp [plainCodes]⟩

theorem ownConflicts_coded (r : Rule) : Coded quietCodes (ownConflicts r) :=
  (ownConflicts_plain r).quiet

def oppositionCodes : List Code := [.successFailureConflict, .showHideConflict, .counterConflict]

theorem oppositions_coded (signature : String) (first second : Rule) :
    Coded oppositionCodes (oppositions signature first second) := by
  unfold oppositions opposition
  simp only [coded_append]
  exact ⟨⟨coded_ite (by simp [oppositionCodes]) coded_nil,
    coded_map fun _ => by simp [oppositionCodes]⟩, coded_map fun _ => by simp [oppositionCodes]⟩

theorem coded_everyPair {codes : List Code} {α : Type} {check : α → α → List Finding}
    (h : ∀ a b, Coded codes (check a b)) (list : List α) : Coded codes (everyPair check list) := by
  induction list with
  | nil => exact coded_nil
  | cons a rest ih => exact coded_append.mpr ⟨coded_flatMap fun b _ => h a b, ih⟩

theorem conflicts_plain : Coded (plainCodes ++ oppositionCodes) (conflicts g) := by
  unfold conflicts
  rw [coded_append]
  refine ⟨coded_flatMap fun r _ => (ownConflicts_plain r).mono (by decide),
    coded_flatMap fun group _ => ?_⟩
  exact (coded_everyPair (oppositions_coded group.1) group.2).mono (by decide)

theorem conflicts_coded : Coded outcomeCodes (conflicts g) :=
  (conflicts_plain g).mono (by decide)

theorem counterUsage_coded (index : Nat) (c : Counter) :
    Coded counterCodes (counterUsage g index c) := by
  unfold counterUsage counterUse
  dsimp only
  split <;> simp [counterCodes]

theorem counterUses_coded : Coded counterCodes (counterUses g) :=
  coded_indexed (counterUsage_coded g)

theorem successNeeds_coded (r : Rule) (path : Path) (c : Condition) :
    Coded plainCodes (successNeeds g r path c) := by
  unfold successNeeds
  repeat' split
  all_goals simp [plainCodes]

theorem successReachability_plain : Coded plainCodes (successReachability g) :=
  coded_indexed fun _ r => coded_ite (coded_indexed fun _ c => successNeeds_coded g r _ c) coded_nil

theorem successReachability_coded : Coded quietCodes (successReachability g) :=
  (successReachability_plain g).quiet

end Rulewise

/-! ## What a repair does about the codes -/

theorem fieldCodes_not_definitional : ∀ c ∈ fieldCodes, (Repair.definitionOf? c).isNone = true := by
  decide

theorem outcomeCodes_not_definitional :
    ∀ c ∈ outcomeCodes, (Repair.definitionOf? c).isNone = true := by
  decide

theorem ruleCodes_not_autoFixable :
    ∀ c ∈ referenceCodes ++ counterCodes ++ outcomeCodes, c.category ≠ .autoFixable := by
  decide

theorem rulewiseFindings_split (g : Game) : ∃ others, rulewiseFindings g = references g ++ others ∧
    Coded (counterCodes ++ outcomeCodes) others := by
  have houtcome {findings : List Finding} (h : Coded outcomeCodes findings) :
      Coded (counterCodes ++ outcomeCodes) findings :=
    h.mono fun c hc => List.mem_append_right _ hc
  refine ⟨outcomesExist g ++ instantOutcomes g ++ automaticOutcomes g ++ playerAction g ++
    conflicts g ++ counterUses g ++ successReachability g,
    by simp only [rulewiseFindings, List.append_assoc], ?_⟩
  simp only [coded_append]
  refine ⟨⟨⟨⟨⟨⟨houtcome (outcomesExist_coded g).loud, houtcome (instantOutcomes_coded g).loud⟩,
    houtcome (automaticOutcomes_coded g).loud⟩, houtcome (playerAction_coded g).loud⟩,
    houtcome (conflicts_coded g)⟩, ?_⟩, houtcome (successReachability_coded g).loud⟩
  exact (counterUses_coded g).mono fun c hc => List.mem_append_left _ hc

theorem rulewise_coded (g : Game) :
    Coded (referenceCodes ++ counterCodes ++ outcomeCodes) (rulewiseFindings g) := by
  obtain ⟨others, heq, hothers⟩ := rulewiseFindings_split g
  rw [heq, coded_append, List.append_assoc]
  exact ⟨(references_coded g).mono fun c hc => List.mem_append_left _ hc,
    hothers.mono fun c hc => List.mem_append_right _ hc⟩

end TouchGame.Check

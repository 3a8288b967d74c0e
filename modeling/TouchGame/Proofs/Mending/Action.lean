import TouchGame.Proofs.Mending.Condition

/-!
# Mending actions

The numbers of hidings, movements, scores, effects and sounds are mended, and so are those of the
actions that a supported choice may pick, to any depth, with the chances of its options.

* `mendAction` : an action as the checks want it.
* `action_heals`, `action_settles` : every finding about an action that can be fixed has a cure.
-/

namespace TouchGame.Mending

open Check

/-! ## The mended action -/

def mendPoints (value : Option Number) : Option Number :=
  some ((value.map points.mend).getD 100)

/-- An action with its own numbers mended. -/
def mendActionFields : Action → Action
  | .hide target fadeOut d => .hide target fadeOut (d.map duration.mend)
  | .reveal target fadeIn d => .reveal target fadeIn (d.map duration.mend)
  | .move target movement => .move target (movement.mapValue mendMovement)
  | .addScore points => .addScore (mendPoints points)
  | .effect target effect => .effect target (effect.mapValue mendEffect)
  | .playSound sound v => .playSound sound (v.map volume.mend)
  | a => a

mutual

/-- An action as the checks want it; one of an unsupported type is left alone. -/
def mendAction (v : Vocabulary) : Action → Action
  | .choice options mode weights =>
    if v.hasAction (.str "randomAction") then .choice (mendOptions v options) mode weights
    else .choice options mode weights
  | a => if v.hasAction a.kind then mendActionFields a else a

/-- The options of a choice as the checks want them. -/
def mendOptions (v : Vocabulary) : List (ChoiceOption Action) → List (ChoiceOption Action)
  | [] => []
  | ⟨a, weight, probability⟩ :: rest =>
    ⟨mendAction v a, weight, probability.map chance.mend⟩ :: mendOptions v rest

end

def mendOption (v : Vocabulary) (o : ChoiceOption Action) : ChoiceOption Action :=
  ⟨mendAction v o.action, o.weight, o.probability.map chance.mend⟩

theorem mendOptions_eq_map (v : Vocabulary) (options : List (ChoiceOption Action)) :
    mendOptions v options = options.map (mendOption v) := by
  induction options with
  | nil => rfl
  | cons o rest ih =>
    rw [mendOptions, ih]
    rfl

theorem mendAction_plain {v : Vocabulary} {a : Action} (h : a.isChoice = false) :
    mendAction v a = if v.hasAction a.kind then mendActionFields a else a := by
  rw [mendAction]
  exact Action.ne_choice h

theorem kind_mendActionFields (a : Action) : (mendActionFields a).kind = a.kind := by
  cases a <;> rfl

/-- The check of an action at a path. -/
def actionCheckup (scope : Scope) (path : Path) : Checkup Action where
  base := path
  owns := ownedBy (some scope.rule.id)
  place? a := a.part.place?
  findings := action scope path
  mend := mendAction scope.vocabulary

/-! ## Findings that cannot be fixed in place -/

/-- The findings about the enumerated fields and the object of an action. -/
def actionEnumFindings (scope : Scope) (path : Path) (a : Action) : List Finding :=
  enumFindings scope path a.kind.shown (actionEnums a) ++ needsObject scope path a

variable {scope : Scope} {path : Path} {a : Action}

@[simp] theorem fixable_needsObject : fixable (needsObject scope path a) = false := by
  unfold needsObject
  split <;> rfl

@[simp] theorem fixable_actionEnumFindings : fixable (actionEnumFindings scope path a) = false := by
  simp [actionEnumFindings, enumFindings, fixable_flatMap]

@[simp] theorem fixable_needsFlag (type : String) (flag : Slot String) :
    fixable (needsFlag scope path type flag) = false := by
  unfold needsFlag
  split <;> rfl

theorem ownAction_eq : ownAction scope path a =
    actionEnumFindings scope path a ++ actionFields scope path a := rfl

theorem action_of_plain (h : a.isChoice = false) : action scope path a =
    if scope.vocabulary.hasAction a.kind then
      actionEnumFindings scope path a ++ actionFields scope path a
    else [unsupportedAction scope path a] := by
  rw [action]
  · rfl
  · exact Action.ne_choice h

/-- Whether an action that is no choice has numbers that are mended. -/
def isMeasuredAction : Action → Bool
  | .hide .. | .reveal .. | .move .. | .addScore .. | .effect .. | .playSound .. => true
  | _ => false

theorem fixable_actionFields (h : isMeasuredAction a = false) :
    fixable (actionFields scope path a) = false := by
  cases a with
  | counter name operation value =>
    simp only [actionFields, plainActionFields, fixable_append, Bool.or_eq_false_iff]
    constructor <;> split <;> rfl
  | setFlag => exact fixable_needsFlag ..
  | toggleFlag => exact fixable_needsFlag ..
  | switchAnimation =>
    simp only [actionFields, plainActionFields]
    split <;> rfl
  | applyForce =>
    simp only [actionFields, plainActionFields]
    split <;> rfl
  | applyImpulse =>
    simp only [actionFields, plainActionFields]
    split <;> rfl
  | _ => first | rfl | cases h

/-! ## Actions with numbers -/

theorem speaks_soundVolume (scope : Scope) (path : Path) :
    Speaks volume path (ownedBy (some scope.rule.id)) (soundVolume scope path) :=
  .of_one (fun _ => rfl) fun _ => ⟨rfl, rfl, rfl⟩

theorem speaks_awardedPoints (scope : Scope) (path : Path) :
    Speaks points path (ownedBy (some scope.rule.id)) (awardedPoints scope path) :=
  .of_one (fun _ => rfl) fun _ => ⟨rfl, rfl, rfl⟩

section Supported

variable (target sound : Slot String) (value : Option Number)

theorem action_of_supported (hplain : a.isChoice = false)
    (hkind : scope.vocabulary.hasAction a.kind = true) :
    action scope path a = actionEnumFindings scope path a ++ actionFields scope path a := by
  rw [action_of_plain hplain, if_pos hkind]

theorem mendAction_of_supported {v : Vocabulary} (hplain : a.isChoice = false)
    (hkind : v.hasAction a.kind = true) : mendAction v a = mendActionFields a := by
  rw [mendAction_plain hplain, if_pos hkind]

/-- An action that hides or shows an object, given how it is built around its duration. -/
theorem duration_heals (build : Option Number → Action)
    (hplain : ∀ d, (build d).isChoice = false)
    (hkind : ∀ d, scope.vocabulary.hasAction (build d).kind = true)
    (henums : ∀ d, actionEnumFindings scope path (build d) = actionEnumFindings scope path (build none))
    (hfields : ∀ d, actionFields scope path (build d) =
      ifPresent d (positiveDuration scope (path ++ [.name "duration"])))
    (hmend : ∀ d, mendActionFields (build d) = build (d.map duration.mend))
    (hplace : ∀ n, (build (some n)).part.place? [.name "duration"] =
      some (.number n fun m => build (some m))) :
    (actionCheckup scope path).Heals (build value) := by
  have hfindings (d : Option Number) : action scope path (build d) =
      actionEnumFindings scope path (build none) ++
        ifPresent d (positiveDuration scope (path ++ [.name "duration"])) := by
    rw [action_of_supported (hplain d) (hkind d), henums, hfields]
  have hmended (d : Option Number) :
      mendAction scope.vocabulary (build d) = build (d.map duration.mend) := by
    rw [mendAction_of_supported (hplain d) (hkind d), hmend]
  refine Checkup.HealsIn.heals (hfindings value) (.append ?_ ?_)
  · exact .of_unfixable fixable_actionEnumFindings
  · refine .number? [.name "duration"] value (fun n => build (some n))
      (speaks_positiveDuration scope _) ?_ ?_ ?_
    · intro n hn
      rw [hn]
      exact hplace n
    · intro n
      simp [actionCheckup, hfindings, ifPresent]
    · intro n hn
      simp only [actionCheckup, hmended, Option.map_some, hn]

theorem hide_heals (fade : Slot Bool) (h : scope.vocabulary.hasAction (.str "hide") = true) :
    (actionCheckup scope path).Heals (.hide target fade value) := by
  refine duration_heals value (.hide target fade) (fun _ => rfl) (fun _ => h) (fun _ => rfl)
    (fun _ => rfl) (fun _ => rfl) fun n => ?_
  refine Part.record_place? Field.duration rfl ?_
  rfl

theorem reveal_heals (fade : Slot Bool) (h : scope.vocabulary.hasAction (.str "show") = true) :
    (actionCheckup scope path).Heals (.reveal target fade value) := by
  refine duration_heals value (.reveal target fade) (fun _ => rfl) (fun _ => h) (fun _ => rfl)
    (fun _ => rfl) (fun _ => rfl) fun n => ?_
  refine Part.record_place? Field.duration rfl ?_
  rfl

theorem actionEnumFindings_move {m m' : Movement} (htype : m.type = m'.type)
    (hdirection : m.direction = m'.direction) :
    actionEnumFindings scope path (.move target (.value m)) =
      actionEnumFindings scope path (.move target (.value m')) := by
  simp only [actionEnumFindings, actionEnums, Slot.get?, movementEnums, htype, hdirection]
  rfl

theorem actionEnumFindings_effect {e e' : Effect} (htype : e.type = e'.type) :
    actionEnumFindings scope path (.effect target (.value e)) =
      actionEnumFindings scope path (.effect target (.value e')) := by
  simp only [actionEnumFindings, actionEnums, Slot.get?, effectEnums, htype]
  rfl

theorem move_heals (movement : Slot Movement)
    (h : scope.vocabulary.hasAction (.str "move") = true) :
    (actionCheckup scope path).Heals (.move target movement) := by
  refine Checkup.HealsIn.heals (action_of_supported rfl h) (.append ?_ ?_)
  · exact .of_unfixable fixable_actionEnumFindings
  · cases movement with
    | value m =>
      have hfields : actionFields scope path (.move target (.value m)) =
        (movementCheckup scope (path ++ [.name "movement"])).findings m := rfl
      rw [hfields]
      refine .field [.name "movement"] (fun b => .move target (.value b)) (movement_heals scope _ m)
        rfl (fun _ _ _ hl => hl) ?_ ?_ ?_
      · intro rel q hq
        exact Part.record_place? Field.movement rfl (Part.inner_place? _ hq)
      · intro b hb
        have hmended : mendMovement b = mendMovement m := hb
        have htype : (mendMovement b).type = (mendMovement m).type := by rw [hmended]
        have hdirection : (mendMovement b).direction = (mendMovement m).direction := by rw [hmended]
        have henums : actionEnumFindings scope path (.move target (.value b)) =
            actionEnumFindings scope path (.move target (.value m)) :=
          actionEnumFindings_move target htype hdirection
        change action scope path (.move target (.value b)) = _
        rw [action_of_supported rfl h, henums, List.append_nil]
        rfl
      · intro b hb
        change mendAction _ (.move target (.value b)) = mendAction _ (.move target (.value m))
        rw [mendAction_of_supported rfl h, mendAction_of_supported rfl h]
        exact congrArg (Action.move target <| .value ·) hb
    | empty => exact .of_unfixable rfl
    | number n => exact .of_unfixable rfl

theorem effect_action_heals (effect : Slot Effect)
    (h : scope.vocabulary.hasAction (.str "effect") = true) :
    (actionCheckup scope path).Heals (.effect target effect) := by
  refine Checkup.HealsIn.heals (action_of_supported rfl h) (.append ?_ ?_)
  · exact .of_unfixable fixable_actionEnumFindings
  · cases effect with
    | value e =>
      have hfields : actionFields scope path (.effect target (.value e)) =
        (effectCheckup scope (path ++ [.name "effect"])).findings e := rfl
      rw [hfields]
      refine .field [.name "effect"] (fun b => .effect target (.value b)) (effect_heals scope _ e)
        rfl (fun _ _ _ hl => hl) ?_ ?_ ?_
      · intro rel q hq
        exact Part.record_place? Field.effect rfl (Part.inner_place? _ hq)
      · intro b hb
        have hmended : mendEffect b = mendEffect e := hb
        have htype : (mendEffect b).type = (mendEffect e).type := by rw [hmended]
        have henums : actionEnumFindings scope path (.effect target (.value b)) =
            actionEnumFindings scope path (.effect target (.value e)) :=
          actionEnumFindings_effect target htype
        change action scope path (.effect target (.value b)) = _
        rw [action_of_supported rfl h, henums, List.append_nil]
        rfl
      · intro b hb
        change mendAction _ (.effect target (.value b)) = mendAction _ (.effect target (.value e))
        rw [mendAction_of_supported rfl h, mendAction_of_supported rfl h]
        exact congrArg (Action.effect target <| .value ·) hb
    | empty => exact .of_unfixable rfl
    | number n => exact .of_unfixable rfl

theorem awardedPoints_hundred (scope : Scope) (path : Path) : awardedPoints scope path 100 = [] := by
  have h : Number.lt 100 0 = false := by decide +kernel
  rw [awardedPoints, h]
  rfl

theorem mendPoints_hundred : mendPoints (some 100) = mendPoints none := by
  have h : Number.lt 100 0 = false := by decide +kernel
  have hmend : points.mend 100 = 100 := Gauge.mend_of_none (by simp [points, h])
  simp [mendPoints, hmend]

theorem addScore_heals (h : scope.vocabulary.hasAction (.str "addScore") = true) :
    (actionCheckup scope path).Heals (.addScore value) := by
  have hfindings (n : Number) : action scope path (.addScore (some n)) =
      actionEnumFindings scope path (.addScore none) ++
        awardedPoints scope (path ++ [.name "points"]) n := action_of_supported rfl h
  have hmend (p : Option Number) :
      mendAction scope.vocabulary (.addScore p) = .addScore (mendPoints p) :=
    mendAction_of_supported rfl h
  cases value with
  | some n =>
    refine Checkup.HealsIn.heals (hfindings n) (.append (.of_unfixable fixable_actionEnumFindings) ?_)
    refine .number [.name "points"] (fun m => .addScore (some m))
      (speaks_awardedPoints scope _) ?_ ?_ ?_
    · change (Action.addScore (some n)).part.place? [.name "points"] = _
      refine Part.record_place? Field.points rfl ?_
      rfl
    · intro m
      simp [actionCheckup, hfindings]
    · intro m hm
      simp only [actionCheckup, hmend, mendPoints, Option.map_some, Option.getD_some, hm]
  | none =>
    refine Checkup.HealsIn.heals (action_of_supported rfl h)
      (.append (.of_unfixable fixable_actionEnumFindings) ?_)
    refine .vacant (c := .missingPoints) [.name "points"]
      (fun m => .addScore (some m)) rfl rfl rfl rfl rfl ?_ ?_ ?_
    · change (Action.addScore none).part.place? [.name "points"] = _
      refine Part.record_place? Field.points rfl ?_
      rfl
    · simp [actionCheckup, hfindings, awardedPoints_hundred]
    · simp only [actionCheckup, hmend, mendPoints_hundred]

theorem playSound_heals (h : scope.vocabulary.hasAction (.str "playSound") = true) :
    (actionCheckup scope path).Heals (.playSound sound value) := by
  have hfindings (d : Option Number) : action scope path (.playSound sound d) =
      actionEnumFindings scope path (.playSound sound none) ++
        (actionFields scope path (.playSound sound none) ++
          ifPresent d (soundVolume scope (path ++ [.name "volume"]))) := by
    rw [action_of_supported rfl h]
    simp [actionFields, plainActionFields, ifPresent]
    rfl
  have hmend (d : Option Number) : mendAction scope.vocabulary (.playSound sound d) =
      .playSound sound (d.map volume.mend) := mendAction_of_supported rfl h
  refine Checkup.HealsIn.heals (hfindings value) (.append ?_ (.append ?_ ?_))
  · exact .of_unfixable fixable_actionEnumFindings
  · refine .of_unfixable ?_
    simp only [actionFields, plainActionFields, ifPresent, List.append_nil]
    split <;> rfl
  · refine .number? [.name "volume"] value (fun n => .playSound sound (some n))
      (speaks_soundVolume scope _) ?_ ?_ ?_
    · intro n hn
      rw [hn]
      change (Action.playSound sound (some n)).part.place? [.name "volume"] = _
      refine Part.record_place? Field.volume rfl ?_
      rfl
    · intro n
      simp [actionCheckup, hfindings, ifPresent]
    · intro n hn
      simp only [actionCheckup, hmend, Option.map_some, hn]

end Supported

/-! ## Choices -/

/-- The fields of an option of a choice. -/
def optionPart (o : ChoiceOption Action) : Part (ChoiceOption Action) :=
  .record "RandomActionOption" [
    (Field.action, o.action.part.map (⟨·, o.weight, o.probability⟩)),
    (Field.weight, .number? o.weight (⟨o.action, ·, o.probability⟩)),
    (Field.probability, .number? o.probability (⟨o.action, o.weight, ·⟩))]

theorem optionParts_eq_map (options : List (ChoiceOption Action)) :
    Action.optionParts options = options.map optionPart := by
  induction options with
  | nil => rfl
  | cons o rest ih =>
    rw [Action.optionParts, ih]
    rfl

def optionPath (path : Path) (index : Nat) : Path :=
  path ++ [.name "actions", .index index]

/-- The findings about an option of a choice: about its chance, then about its action. -/
def optionFindings (scope : Scope) (path : Path) (index : Nat) (o : ChoiceOption Action) :
    List Finding :=
  ifPresent o.probability (probability scope (optionPath path index ++ [.name "probability"])) ++
    action scope (optionPath path index ++ [.name "action"]) o.action

theorem choiceOptions_eq_indexed (index : Nat) (options : List (ChoiceOption Action)) :
    choiceOptions scope path index options = indexed (optionFindings scope path) index options := by
  induction options generalizing index with
  | nil => rfl
  | cons o rest ih =>
    rw [choiceOptions, ih]
    rfl

/-- The check of an option of a choice. -/
def optionCheckup (scope : Scope) (path : Path) (index : Nat) : Checkup (ChoiceOption Action) where
  base := optionPath path index
  owns := ownedBy (some scope.rule.id)
  place? o := (optionPart o).place?
  findings := optionFindings scope path index
  mend := mendOption scope.vocabulary

theorem option_heals (index : Nat) (o : ChoiceOption Action)
    (h : ∀ path, (actionCheckup scope path).Heals o.action) :
    (optionCheckup scope path index).Heals o := by
  obtain ⟨a, weight, value⟩ := o
  refine Checkup.HealsIn.heals rfl (.append ?_ ?_)
  · refine .number? [.name "probability"] value (fun n => ⟨a, weight, some n⟩)
      (speaks_probability scope _) ?_ ?_ ?_
    · intro n hn
      rw [hn]
      change (optionPart ⟨a, weight, some n⟩).place? [.name "probability"] = _
      refine Part.record_place? Field.probability rfl ?_
      rfl
    · intro n
      simp [optionCheckup, optionFindings, ifPresent]
    · intro n hn
      simp only [optionCheckup, mendOption, Option.map_some, hn]
  · have hfindings : action scope (optionPath path index ++ [.name "action"]) a =
        (actionCheckup scope (optionPath path index ++ [.name "action"])).findings a := rfl
    rw [hfindings]
    refine .field [.name "action"] (fun b => ⟨b, weight, value⟩) (h _) rfl
      (fun _ _ _ hl => hl) ?_ ?_ ?_
    · intro rel q hq
      exact Part.record_place? Field.action rfl (Part.map_place? hq)
    · intro b _
      simp [optionCheckup, optionFindings, actionCheckup]
    · intro b hb
      have hmended : mendAction scope.vocabulary b = mendAction scope.vocabulary a := hb
      simp only [optionCheckup, mendOption, hmended]

theorem action_choice (options : List (ChoiceOption Action)) (mode : Slot String)
    (weights : Slot (List Number)) (h : scope.vocabulary.hasAction (.str "randomAction") = true) :
    action scope path (.choice options mode weights) =
      ownAction scope path (.choice [] mode .empty) ++
        indexed (optionFindings scope path) 0 options := by
  rw [action, if_pos h, choiceOptions_eq_indexed]
  rfl

theorem fixable_ownAction_choice (mode : Slot String) :
    fixable (ownAction scope path (.choice [] mode .empty)) = false := by
  rw [ownAction_eq, fixable_append, fixable_actionEnumFindings]
  rfl

theorem choice_heals (options : List (ChoiceOption Action)) (mode : Slot String)
    (weights : Slot (List Number)) (h : scope.vocabulary.hasAction (.str "randomAction") = true)
    (hoptions : ∀ o ∈ options, ∀ path, (actionCheckup scope path).Heals o.action) :
    (actionCheckup scope path).Heals (.choice options mode weights) := by
  have hmend (options : List (ChoiceOption Action)) :
      mendAction scope.vocabulary (.choice options mode weights) =
        .choice (options.map (mendOption scope.vocabulary)) mode weights := by
    rw [mendAction, if_pos h, mendOptions_eq_map]
  refine Checkup.HealsIn.heals (action_choice options mode weights h) (.append ?_ ?_)
  · exact .of_unfixable (fixable_ownAction_choice mode)
  · refine .items (j := optionCheckup scope path) (mendOption scope.vocabulary)
      [.name "actions"] (fun changed => .choice changed mode weights) (fun _ => rfl)
      (fun i o ho => option_heals i o (hoptions o (List.mem_of_getElem? ho))) (fun _ => rfl)
      (fun _ _ _ _ _ _ hl => hl) ?_ ?_ ?_
    · intro i o ho rel q hq
      refine Part.record_place? Field.actions rfl ?_
      refine Part.itemsOf_place? (optionPart o) (List.getElem?_eq_some_iff.mp ho).1 ?_ hq
      rw [optionParts_eq_map, List.getElem?_map, ho]
      rfl
    · intro changed _
      change action scope path (.choice changed mode weights) = _
      rw [action_choice changed mode weights h, List.append_nil]
      rfl
    · intro changed hchanged
      change mendAction _ (.choice changed mode weights) = mendAction _ (.choice options mode weights)
      rw [hmend, hmend, hchanged]

/-! ## Actions -/

/-- Every finding about an action that is no choice, and that can be fixed in place, has a cure. -/
theorem plain_heals (hplain : a.isChoice = false) : (actionCheckup scope path).Heals a := by
  cases h : scope.vocabulary.hasAction a.kind with
  | false =>
    refine .of_unfixable ?_
    change fixable (action scope path a) = false
    rw [action_of_plain hplain, h]
    rfl
  | true =>
    cases ha : isMeasuredAction a with
    | false =>
      refine .of_unfixable ?_
      change fixable (action scope path a) = false
      rw [action_of_supported hplain h, fixable_append, fixable_actionEnumFindings,
        fixable_actionFields ha]
      rfl
    | true =>
      cases a with
      | hide target fade d => exact hide_heals target d fade h
      | reveal target fade d => exact reveal_heals target d fade h
      | move target movement => exact move_heals target movement h
      | addScore points => exact addScore_heals points h
      | effect target effect => exact effect_action_heals target effect h
      | playSound sound v => exact playSound_heals sound v h
      | _ => cases ha

theorem action_heals (a : Action) : ∀ path, (actionCheckup scope path).Heals a := by
  induction a using Action.nested_induction with
  | plain a hplain => exact fun _ => plain_heals hplain
  | choice options mode weights ih =>
    intro path
    cases h : scope.vocabulary.hasAction (.str "randomAction") with
    | true => exact choice_heals options mode weights h ih
    | false =>
      refine .of_unfixable ?_
      change fixable (action scope path (.choice options mode weights)) = false
      rw [action, h]
      rfl

theorem plain_settles (hplain : a.isChoice = false) : (actionCheckup scope path).Settles a := by
  intro hfix
  change fixable (action scope path a) = false at hfix
  change mendAction scope.vocabulary a = a
  rw [mendAction_plain hplain]
  split
  · rename_i h
    rw [action_of_supported hplain h, fixable_append, Bool.or_eq_false_iff] at hfix
    have hfields := hfix.2
    cases a with
    | hide target fade d =>
      have hd := (speaks_positiveDuration scope _).settles_option hfields
      simp only [mendActionFields, hd]
    | reveal target fade d =>
      have hd := (speaks_positiveDuration scope _).settles_option hfields
      simp only [mendActionFields, hd]
    | move target movement =>
      cases movement with
      | value m => exact congrArg (Action.move target <| .value ·) (movement_settles scope _ m hfields)
      | empty => rfl
      | number n => rfl
    | addScore points =>
      cases points with
      | none => exact Bool.noConfusion hfields
      | some n =>
        have hn := (speaks_awardedPoints scope _).settles hfields
        simp only [mendActionFields, mendPoints, Option.map_some, Option.getD_some, hn]
    | effect target effect =>
      cases effect with
      | value e => exact congrArg (Action.effect target <| .value ·) (effect_settles scope _ e hfields)
      | empty => rfl
      | number n => rfl
    | playSound sound v =>
      simp only [actionFields, plainActionFields, fixable_append, Bool.or_eq_false_iff] at hfields
      simp only [mendActionFields, (speaks_soundVolume scope _).settles_option hfields.2]
    | _ => rfl
  · rfl

theorem action_settles (a : Action) : ∀ path, (actionCheckup scope path).Settles a := by
  induction a using Action.nested_induction with
  | plain a hplain => exact fun _ => plain_settles hplain
  | choice options mode weights ih =>
    intro path hfix
    change fixable (action scope path (.choice options mode weights)) = false at hfix
    change mendAction scope.vocabulary (.choice options mode weights) = .choice options mode weights
    rw [mendAction]
    split
    · rename_i h
      rw [action_choice options mode weights h, fixable_append, Bool.or_eq_false_iff] at hfix
      rw [mendOptions_eq_map, map_mend_of_settles (fun i o ho hi => ?_) hfix.2]
      simp only [optionFindings, fixable_append, Bool.or_eq_false_iff] at hi
      have ha : mendAction scope.vocabulary o.action = o.action :=
        ih o (List.mem_of_getElem? ho) _ hi.2
      simp only [mendOption, ha, (speaks_probability scope _).settles_option hi.1]
    · rfl

end TouchGame.Mending

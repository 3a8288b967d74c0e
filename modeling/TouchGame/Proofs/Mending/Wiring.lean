import TouchGame.Proofs.Check.Lookups
import TouchGame.Proofs.Mending.Game

/-!
# What mending leaves alone

Mending changes numbers. Which rules read and write what, which rules end the game and on whose
input, and where no check can be made, stays as it was. So the checks between rules find in a mended
rule-set what they found before, apart from those that compare the signatures of triggers.

* `mendCondition_keeps`, `mendAction_keeps` : whatever does not look at the mended numbers stays.
* `counterWriters_mendGame`, … : the wires of a mended rule-set.
* `instantOutcomes_mendGame`, … : its findings between rules.
-/

namespace TouchGame.Mending

open Check

variable {v : Vocabulary}

/-! ## Conditions -/

section Conditions

theorem mendCondition_keeps {β : Type} {keep : Condition → β}
    (h : ∀ c, keep (mendConditionFields c) = keep c) (c : Condition) :
    keep (mendCondition v c) = keep c := by
  unfold mendCondition
  split
  · exact h c
  · rfl

variable (c : Condition)

@[simp] theorem kind_mendCondition : (mendCondition v c).kind = c.kind :=
  mendCondition_keeps kind_mendConditionFields c

@[simp] theorem counterName?_mendCondition : (mendCondition v c).counterName? = c.counterName? :=
  mendCondition_keeps (fun c => by cases c <;> rfl) c

@[simp] theorem flagName?_mendCondition : (mendCondition v c).flagName? = c.flagName? :=
  mendCondition_keeps (fun c => by cases c <;> rfl) c

@[simp] theorem isAutomatic_mendCondition : isAutomatic (mendCondition v c) = isAutomatic c :=
  mendCondition_keeps (fun c => by cases c <;> rfl) c

@[simp] theorem isTimer_mendCondition : isTimer (mendCondition v c) = isTimer c :=
  mendCondition_keeps (fun c => by cases c <;> rfl) c

@[simp] theorem regionFault?_mendCondition : regionFault? (mendCondition v c) = regionFault? c :=
  mendCondition_keeps (fun c => by
    cases c with
    | position target area region => cases region <;> rfl
    | _ => rfl) c

@[simp] theorem holdsAtStart?_mendCondition (g : Game) (covers : Comparison → Bool) :
    holdsAtStart? g covers (mendCondition v c) = holdsAtStart? g covers c :=
  mendCondition_keeps (fun c => by cases c <;> rfl) c

end Conditions

/-! ## Actions -/

section Actions

/-- What stays of an action when its numbers are mended: anything that sees neither them nor the
options of a choice. -/
theorem mendAction_keeps {β : Type} {keep : Action → β}
    (h : ∀ a, keep (mendActionFields a) = keep a)
    (hchoice : ∀ options options' mode weights,
      keep (.choice options mode weights) = keep (.choice options' mode weights)) (a : Action) :
    keep (mendAction v a) = keep a := by
  induction a using Action.nested_induction with
  | plain a hplain =>
    rw [mendAction_plain hplain]
    split
    · exact h a
    · rfl
  | choice options mode weights _ =>
    rw [mendAction]
    split
    · exact hchoice ..
    · rfl

variable (a : Action)

@[simp] theorem kind_mendAction : (mendAction v a).kind = a.kind :=
  mendAction_keeps kind_mendActionFields (fun _ _ _ _ => rfl) a

@[simp] theorem kindText?_mendAction : (mendAction v a).kindText? = a.kindText? := by
  rw [Action.kindText?, kind_mendAction]
  rfl

@[simp] theorem worksOn?_mendAction : (mendAction v a).worksOn? = a.worksOn? :=
  mendAction_keeps (fun a => by cases a <;> rfl) (fun _ _ _ _ => rfl) a

@[simp] theorem counterName?_mendAction : (mendAction v a).counterName? = a.counterName? :=
  mendAction_keeps (fun a => by cases a <;> rfl) (fun _ _ _ _ => rfl) a

@[simp] theorem flagName?_mendAction : (mendAction v a).flagName? = a.flagName? :=
  mendAction_keeps (fun a => by cases a <;> rfl) (fun _ _ _ _ => rfl) a

@[simp] theorem changesVisibility_mendAction :
    (mendAction v a).changesVisibility = a.changesVisibility :=
  mendAction_keeps (fun a => by cases a <;> rfl) (fun _ _ _ _ => rfl) a

@[simp] theorem followsDrag_mendAction : (mendAction v a).followsDrag = a.followsDrag :=
  mendAction_keeps (fun a => by
    cases a with
    | move target movement => cases movement <;> rfl
    | _ => rfl) (fun _ _ _ _ => rfl) a

@[simp] theorem movementFault?_mendAction : movementFault? (mendAction v a) = movementFault? a :=
  mendAction_keeps (fun a => by
    cases a with
    | move target movement => cases movement <;> rfl
    | _ => rfl) (fun _ _ _ _ => rfl) a

theorem picks_mendAction : (mendAction v a).picks = if v.hasAction (.str "randomAction") then
    a.picks.map (mendAction v) else a.picks := by
  induction a using Action.nested_induction with
  | plain a hplain =>
    have hstill : (mendAction v a).isChoice = false := by
      rw [← hplain]
      exact mendAction_keeps (fun a => by cases a <;> rfl) (fun _ _ _ _ => rfl) a
    rw [Action.picks_of_plain hplain, Action.picks_of_plain hstill, List.map_nil, ite_self]
  | choice options mode weights _ =>
    rw [mendAction]
    split
    · rename_i h
      rw [mendOptions_eq_map]
      simp [Action.picks, mendOption]
    · rfl

end Actions

/-! ## Rules -/

section Rules

variable (r : Rule)

@[simp] theorem id_mendRule : (mendRule v r).id = r.id := rfl

@[simp] theorem targetObject_mendRule : (mendRule v r).targetObject = r.targetObject := rfl

@[simp] theorem actions_mendRule : (mendRule v r).actions = r.actions.map (mendAction v) := rfl

@[simp] theorem conditions_mendRule :
    (mendRule v r).conditions = r.conditions.map (mendCondition v) := by
  obtain ⟨id, name, target, trigger, actions⟩ := r
  cases trigger <;> rfl

@[simp] theorem resolve_mendRule (target : Slot String) :
    (mendRule v r).resolve target = r.resolve target := rfl

@[simp] theorem objectOf_mendAction (a : Action) : r.objectOf (mendAction v a) = r.objectOf a := by
  rw [Rule.objectOf, worksOn?_mendAction]
  rfl

theorem conditions_any {p q : Condition → Bool} (h : ∀ c, p (mendCondition v c) = q c) :
    (mendRule v r).conditions.any p = r.conditions.any q := by
  rw [conditions_mendRule, List.any_map]
  exact congrArg _ (funext h)

theorem conditions_all {p : Condition → Bool} (h : ∀ c, p (mendCondition v c) = p c) :
    (mendRule v r).conditions.all p = r.conditions.all p := by
  rw [conditions_mendRule, List.all_map]
  exact congrArg _ (funext h)

theorem actions_any {p : Action → Bool} (h : ∀ a, p (mendAction v a) = p a) :
    (mendRule v r).actions.any p = r.actions.any p := by
  rw [actions_mendRule, List.any_map]
  exact congrArg _ (funext h)

theorem allActions_keep {β : Type} {keep : Action → β} (h : ∀ a, keep (mendAction v a) = keep a) :
    (mendRule v r).allActions.map keep = r.allActions.map keep := by
  have hpicks (a : Action) : (mendAction v a).picks.map keep = a.picks.map keep := by
    rw [picks_mendAction]
    split
    · rw [List.map_map]
      exact List.map_congr_left fun a _ => h a
    · rfl
  simp only [Rule.allActions, Rule.withPicks, actions_mendRule, List.flatMap_map, List.map_flatMap,
    List.map_cons, hpicks, h]

theorem allActions_any {p : Action → Bool} (h : ∀ a, p (mendAction v a) = p a) :
    (mendRule v r).allActions.any p = r.allActions.any p := by
  have hany (actions : List Action) : actions.any p = (actions.map p).any id := by
    rw [List.any_map]
    rfl
  rw [hany, hany, allActions_keep r h]

theorem allActions_forall {p : Action → Prop} (h : ∀ a, p (mendAction v a) ↔ p a) :
    (∀ a ∈ (mendRule v r).allActions, p a) ↔ ∀ a ∈ r.allActions, p a := by
  have hall (actions : List Action) : (∀ a ∈ actions, p a) ↔ ∀ q ∈ actions.map p, q := by
    rw [List.forall_mem_map]
  rw [hall, hall, allActions_keep r fun a => propext (h a)]

theorem allActions_filterMap {β : Type} {find : Action → Option β}
    (h : ∀ a, find (mendAction v a) = find a) :
    (mendRule v r).allActions.filterMap find = r.allActions.filterMap find := by
  have hfind (actions : List Action) : actions.filterMap find = (actions.map find).filterMap id := by
    rw [List.filterMap_map]
    rfl
  rw [hfind, hfind, allActions_keep r h]

theorem actions_filterMap {β : Type} {find : Action → Option β}
    (h : ∀ a, find (mendActionFields a) = find a)
    (hchoice : ∀ options options' mode weights,
      find (.choice options mode weights) = find (.choice options' mode weights)) :
    (mendRule v r).actions.filterMap find = r.actions.filterMap find := by
  rw [actions_mendRule, List.filterMap_map]
  exact congrArg (List.filterMap · r.actions) (funext (mendAction_keeps h hchoice))

@[simp] theorem fires_mendRule (type : String) : (mendRule v r).fires type = r.fires type :=
  actions_any r fun a => by rw [kindText?_mendAction]

@[simp] theorem mayFire_mendRule (type : String) : (mendRule v r).mayFire type = r.mayFire type :=
  allActions_any r fun a => by rw [kindText?_mendAction]

@[simp] theorem conditionWords_mendRule : (mendRule v r).conditionWords = r.conditionWords := by
  rw [Rule.conditionWords, conditions_mendRule, List.filterMap_map]
  refine congrArg (List.filterMap · r.conditions) (funext fun c => ?_)
  simp only [Function.comp_apply, Condition.kindText?, kind_mendCondition]

@[simp] theorem shownOrHidden?_mendAction (a : Action) :
    r.shownOrHidden? (mendAction v a) = r.shownOrHidden? a := by
  rw [Rule.shownOrHidden?, changesVisibility_mendAction, objectOf_mendAction]
  rfl

@[simp] theorem draggedObjects_mendRule : (mendRule v r).draggedObjects = r.draggedObjects := by
  simp only [Rule.draggedObjects, List.filterMap_filter]
  exact allActions_filterMap r fun a => by simp

@[simp] theorem shownObjects_mendRule : (mendRule v r).shownObjects = r.shownObjects :=
  actions_filterMap r (fun a => by cases a <;> rfl) fun _ _ _ _ => rfl

@[simp] theorem hiddenObjects_mendRule : (mendRule v r).hiddenObjects = r.hiddenObjects :=
  actions_filterMap r (fun a => by cases a <;> rfl) fun _ _ _ _ => rfl

@[simp] theorem raisedCounters_mendRule : (mendRule v r).raisedCounters = r.raisedCounters :=
  actions_filterMap r (fun a => by cases a <;> rfl) fun _ _ _ _ => rfl

@[simp] theorem loweredCounters_mendRule : (mendRule v r).loweredCounters = r.loweredCounters :=
  actions_filterMap r (fun a => by cases a <;> rfl) fun _ _ _ _ => rfl

@[simp] theorem wiringFault?_mendRule : wiringFault? (mendRule v r) = wiringFault? r := by
  have hactions : (mendRule v r).allActions.findSome? movementFault? =
      r.allActions.findSome? movementFault? := by
    have hfault (actions : List Action) :
        actions.findSome? movementFault? = (actions.map movementFault?).findSome? id := by
      rw [List.findSome?_map]
      rfl
    rw [hfault, hfault, allActions_keep r fun a => movementFault?_mendAction a]
  rw [wiringFault?, hactions]
  obtain ⟨id, name, target, trigger, actions⟩ := r
  cases trigger <;> rfl

theorem isInput_mendRule (input : Input) (c : Condition) :
    (mendRule v r).isInput input (mendCondition v c) = r.isInput input c :=
  mendCondition_keeps (fun c => by cases c <;> rfl) c

@[simp] theorem gatedByPlayer_mendRule (input : Input) :
    (mendRule v r).gatedByPlayer input = r.gatedByPlayer input :=
  conditions_any r (isInput_mendRule r input)

end Rules

/-! ## Wires -/

section Wires

variable (g : Game)

@[simp] theorem rules_mendGame : (mendGame v g).rules = g.rules.map (mendRule v) := rfl

@[simp] theorem counters_mendGame : (mendGame v g).counters = g.counters := rfl

@[simp] theorem sounds_mendGame : (mendGame v g).sounds = g.sounds := rfl

theorem rules_filter {p q : Rule → Bool} (h : ∀ r, p (mendRule v r) = q r) :
    (mendGame v g).rules.filter p = (g.rules.filter q).map (mendRule v) := by
  rw [rules_mendGame, List.filter_map]
  exact congrArg (fun p => (g.rules.filter p).map (mendRule v)) (funext h)

@[simp] theorem counterWriters_mendGame (counter : Name) :
    (mendGame v g).counterWriters counter = (g.counterWriters counter).map (mendRule v) :=
  rules_filter g fun r => allActions_any r fun a => by rw [counterName?_mendAction]

@[simp] theorem counterReaders_mendGame (counter : Name) :
    (mendGame v g).counterReaders counter = (g.counterReaders counter).map (mendRule v) :=
  rules_filter g fun r => conditions_any r fun c => by rw [counterName?_mendCondition]

@[simp] theorem flagWriters_mendGame (flag : Name) :
    (mendGame v g).flagWriters flag = (g.flagWriters flag).map (mendRule v) :=
  rules_filter g fun r => allActions_any r fun a => by rw [flagName?_mendAction]

@[simp] theorem visibilityWriters_mendGame (object : Name) :
    (mendGame v g).visibilityWriters object = (g.visibilityWriters object).map (mendRule v) :=
  rules_filter g fun r => allActions_any r fun a => by simp

@[simp] theorem rulesThatMay_mendGame (type : String) :
    (mendGame v g).rulesThatMay type = (g.rulesThatMay type).map (mendRule v) :=
  rules_filter g fun r => mayFire_mendRule r type

@[simp] theorem dragged_mendGame : (mendGame v g).dragged = g.dragged := by
  simp only [Game.dragged, rules_mendGame, List.flatMap_map, draggedObjects_mendRule]

theorem any_gatedByPlayer (input : Input) (rules : List Rule) :
    (rules.map (mendRule v)).any (·.gatedByPlayer input) = rules.any (·.gatedByPlayer input) := by
  rw [List.any_map]
  exact congrArg _ (funext fun r => gatedByPlayer_mendRule r input)

@[simp] theorem fedByPlayer_mendGame (input : Input) (c : Condition) :
    (mendGame v g).fedByPlayer input c = g.fedByPlayer input c := by
  unfold Game.fedByPlayer
  split
  · rw [counterWriters_mendGame, any_gatedByPlayer]
  · rw [flagWriters_mendGame, any_gatedByPlayer]
  · rfl

@[simp] theorem fedByPlayer_mendCondition (input : Input) (c : Condition) :
    g.fedByPlayer input (mendCondition v c) = g.fedByPlayer input c := by
  rw [Game.fedByPlayer, counterName?_mendCondition, flagName?_mendCondition]
  rfl

@[simp] theorem ledByPlayer_mendGame (input : Input) (r : Rule) :
    (mendGame v g).ledByPlayer input (mendRule v r) = g.ledByPlayer input r := by
  have hfed : (mendRule v r).conditions.any ((mendGame v g).fedByPlayer input) =
      r.conditions.any (g.fedByPlayer input) := by
    rw [conditions_mendRule, List.any_map]
    exact congrArg _ (funext fun c => by simp)
  rw [Game.ledByPlayer, gatedByPlayer_mendRule, hfed]
  rfl

theorem any_ledByPlayer (input : Input) (rules : List Rule) :
    (rules.map (mendRule v)).any ((mendGame v g).ledByPlayer input) =
      rules.any (g.ledByPlayer input) := by
  rw [List.any_map]
  exact congrArg _ (funext fun r => ledByPlayer_mendGame g input r)

end Wires

/-! ## Findings between rules -/

section Findings

variable (g : Game)

theorem indexed_map {α β : Type} (f : α → β) (check : Nat → β → List Finding) (start : Nat)
    (list : List α) :
    indexed check start (list.map f) = indexed (fun i a => check i (f a)) start list := by
  induction list generalizing start with
  | nil => rfl
  | cons a rest ih => rw [List.map_cons, indexed, indexed, ih]

@[simp] theorem outcomesExist_mendGame : outcomesExist (mendGame v g) = outcomesExist g := by
  simp [outcomesExist]

theorem firstTrue?_mendGame (covers : Comparison → Bool) (index : Nat)
    (conditions : List Condition) :
    firstTrue? (mendGame v g) covers index (conditions.map (mendCondition v)) =
      firstTrue? g covers index conditions := by
  have hgame (c : Condition) : holdsAtStart? (mendGame v g) covers c = holdsAtStart? g covers c := rfl
  induction conditions generalizing index with
  | nil => rfl
  | cons c rest ih => simp only [List.map_cons, firstTrue?, holdsAtStart?_mendCondition, hgame, ih]

theorem instantOutcome_mendGame (index : Nat) (r : Rule) (outcome : InstantOutcome) :
    instantOutcome (mendGame v g) index (mendRule v r) outcome = instantOutcome g index r outcome := by
  simp only [instantOutcome, mayFire_mendRule, conditions_mendRule, List.isEmpty_map,
    firstTrue?_mendGame, id_mendRule]

@[simp] theorem instantOutcomes_mendGame : instantOutcomes (mendGame v g) = instantOutcomes g := by
  simp only [instantOutcomes, rules_mendGame, indexed_map, instantOutcome_mendGame]

@[simp] theorem automaticSuccess_mendGame (r : Rule) :
    automaticSuccess (mendGame v g) (mendRule v r) = automaticSuccess g r := by
  have hall : ((mendRule v r).conditions.all fun c =>
      isAutomatic c && !(mendGame v g).fedByPlayer .any c) =
        r.conditions.all fun c => isAutomatic c && !g.fedByPlayer .any c := by
    rw [conditions_mendRule, List.all_map]
    exact congrArg _ (funext fun c => by simp)
  rw [automaticSuccess, hall, autoSuccess, conditionWords_mendRule]
  rfl

@[simp] theorem automaticFailure_mendRule (r : Rule) :
    automaticFailure (mendRule v r) = automaticFailure r := by
  rw [automaticFailure, conditions_all r isTimer_mendCondition]
  rfl

@[simp] theorem automaticOutcomes_mendGame :
    automaticOutcomes (mendGame v g) = automaticOutcomes g := by
  have hgated (rules : List Rule) :
      gated (rules.map (mendRule v)) = (gated rules).map (mendRule v) := by
    rw [gated, List.filter_map]
    exact congrArg (fun p => (rules.filter p).map (mendRule v)) (funext fun r => by simp)
  simp only [automaticOutcomes, automaticFailures, rulesThatMay_mendGame, any_gatedByPlayer,
    any_ledByPlayer, hgated, List.flatMap_map, automaticSuccess_mendGame, automaticFailure_mendRule]

@[simp] theorem playerAction_mendGame : playerAction (mendGame v g) = playerAction g := by
  simp only [playerAction, checkPlayerAction, dragged_mendGame, rulesThatMay_mendGame,
    any_ledByPlayer]
  cases g.rulesThatMay "success" <;> rfl

@[simp] theorem ownConflicts_mendRule (r : Rule) : ownConflicts (mendRule v r) = ownConflicts r := by
  simp only [ownConflicts, ownOutcomes, ownVisibility, fires_mendRule, shownObjects_mendRule,
    hiddenObjects_mendRule, id_mendRule]

@[simp] theorem oppositions_mendRule (signature : String) (first second : Rule) :
    oppositions signature (mendRule v first) (mendRule v second) =
      oppositions signature first second := by
  simp only [oppositions, opposition, oppositeOutcomes, fires_mendRule, shownObjects_mendRule,
    hiddenObjects_mendRule, raisedCounters_mendRule, loweredCounters_mendRule, id_mendRule]
  rfl

theorem counterUsage_mendGame (index : Nat) (c : Counter) :
    counterUsage (mendGame v g) index c = counterUsage g index c := by
  simp only [counterUsage, counterReaders_mendGame, counterWriters_mendGame]
  cases g.counterReaders c.id <;> cases g.counterWriters c.id <;> rfl

@[simp] theorem counterUses_mendGame : counterUses (mendGame v g) = counterUses g := by
  have hcheck : counterUsage (mendGame v g) = counterUsage g :=
    funext fun index => funext (counterUsage_mendGame g index)
  rw [counterUses, hcheck]
  rfl

theorem successNeeds_mendGame (r : Rule) (path : Path) (c : Condition) :
    successNeeds (mendGame v g) (mendRule v r) path (mendCondition v c) =
      successNeeds g r path c := by
  have hcondition : successNeeds (mendGame v g) (mendRule v r) path (mendCondition v c) =
      successNeeds (mendGame v g) (mendRule v r) path c :=
    mendCondition_keeps (fun c => by cases c <;> rfl) c
  rw [hcondition]
  cases c <;> simp [successNeeds]

@[simp] theorem successReachability_mendGame :
    successReachability (mendGame v g) = successReachability g := by
  simp only [successReachability, rules_mendGame, indexed_map, mayFire_mendRule, conditions_mendRule,
    successNeeds_mendGame]

end Findings

/-! ## Checks that cannot be made -/

section Faults

theorem findSome?_mend {α β : Type} {mend : α → α} (fault? : α → Option β) {list : List α}
    (h : ∀ a ∈ list, fault? (mend a) = fault? a) :
    (list.map mend).findSome? fault? = list.findSome? fault? := by
  induction list with
  | nil => rfl
  | cons a rest ih =>
    rw [List.map_cons, List.findSome?_cons, List.findSome?_cons, h a List.mem_cons_self,
      ih fun b hb => h b (List.mem_cons_of_mem a hb)]

theorem conditionFault?_mendCondition (c : Condition) :
    conditionFault? v (mendCondition v c) = conditionFault? v c := by
  rw [conditionFault?, kind_mendCondition, regionFault?_mendCondition]
  rfl

theorem actionFault?_mendAction (a : Action) : actionFault? v (mendAction v a) = actionFault? v a := by
  induction a using Action.nested_induction with
  | plain a hplain =>
    have hstill : (mendActionFields a).isChoice = false := by
      rw [← hplain]
      cases a <;> rfl
    rw [mendAction_plain hplain]
    split
    · rw [actionFault?_plain hplain, actionFault?_plain hstill, kind_mendActionFields]
      cases a with
      | move target movement =>
        cases movement with
        | value m =>
          obtain ⟨type, goal, speed, duration, direction⟩ := m
          cases goal <;> rfl
        | _ => rfl
      | effect target effect => cases effect <;> rfl
      | _ => rfl
    · rfl
  | choice options mode weights ih =>
    rw [mendAction]
    split
    · have hoptions : optionsFault? v (mendOptions v options) = optionsFault? v options := by
        rw [optionsFault?_eq, optionsFault?_eq, mendOptions_eq_map]
        exact findSome?_mend _ ih
      rw [actionFault?, actionFault?, hoptions]
    · rfl

theorem ruleFault?_mendRule (r : Rule) : ruleFault? v (mendRule v r) = ruleFault? v r := by
  rw [ruleFault?, conditions_mendRule, actions_mendRule,
    findSome?_mend _ fun c _ => conditionFault?_mendCondition c,
    findSome?_mend _ fun a _ => actionFault?_mendAction a]
  obtain ⟨id, name, target, trigger, actions⟩ := r
  cases trigger <;> rfl

@[simp] theorem fieldwiseFault?_mendGame (g : Game) :
    fieldwiseFault? v (mendGame v g) = fieldwiseFault? v g := by
  have hscale : (g.layout.map mendPlacement).findSome? (fun p => lookFault? Field.x p.scale) =
      g.layout.findSome? fun p => lookFault? Field.x p.scale := by
    refine findSome?_mend _ fun p _ => ?_
    obtain ⟨object, position, scale⟩ := p
    cases scale <;> rfl
  have hinitial : (g.objects.map mendObject).findSome? (fun o => lookFault? Field.x o.initialPosition) =
      g.objects.findSome? fun o => lookFault? Field.x o.initialPosition := by
    refine findSome?_mend _ fun o _ => ?_
    obtain ⟨id, name, purpose, description, position, size⟩ := o
    cases position <;> rfl
  rw [fieldwiseFault?, rules_mendGame, findSome?_mend _ fun r _ => ruleFault?_mendRule r]
  simp only [mendGame, hscale, hinitial]
  rfl

@[simp] theorem lookupFault?_mendGame (g : Game) : lookupFault? (mendGame v g) = lookupFault? g := by
  have hconditions : allConditions (mendGame v g) = (allConditions g).map (mendCondition v) := by
    simp only [allConditions, rules_mendGame, List.flatMap_map, conditions_mendRule, List.map_flatMap]
  have htypes : ((allConditions g).map (mendCondition v)).findSome? (·.kind.typeFault?) =
      (allConditions g).findSome? (·.kind.typeFault?) :=
    findSome?_mend _ fun c _ => by rw [kind_mendCondition]
  rw [lookupFault?, hconditions, rules_mendGame, htypes,
    findSome?_mend _ fun r _ => wiringFault?_mendRule r,
    findSome?_mend _ fun c _ => regionFault?_mendCondition c]
  rfl

end Faults

end TouchGame.Mending

import TouchGame.Proofs.Check.Findings
import TouchGame.Proofs.Results

/-!
# Where a check ends

A check runs through its lookups and sorts in order and ends at the first one that fails. What stands
against it is found by going through it step by step, and if nothing does, it finds what the same steps
find without lookups.

* `checked` : a result, unless something stands against it; `checked_bind`, `indexedM_checked`, .. :
  how steps make up a check.
* `look_eq`, `inTable_eq`, `sortNames_eq` : the steps that may fail.
* `fieldCheck_eq` : the fieldwise check.
* `rulewise_eq` : the check between rules.
* `validate_ok_iff` : both, where they give findings.
-/

namespace TouchGame.Check

/-- A result, unless something stands against it. -/
def checked (fault : Option Fault) (result : α) : Except Fault α :=
  match fault with
  | some fault => .error fault
  | none => .ok result

section Steps

variable {α β : Type} {fault fault' : Option Fault}

theorem checked_ok_iff {a b : α} : checked fault a = .ok b ↔ fault = none ∧ a = b := by
  cases fault <;> simp [checked]

theorem checked_bind {a : α} {b : β} {k : α → Except Fault β} (h : k a = checked fault' b) :
    (checked fault a >>= k) = checked (fault.or fault') b := by
  cases fault with
  | none => exact h
  | some f => rfl

theorem checked_map {a : α} {f : α → β} :
    (checked fault a >>= fun x => pure (f x)) = checked fault (f a) := by
  cases fault <;> rfl

theorem checked_map₂ {γ : Type} {a : α} {b : β} {f : α → β → γ} :
    (checked fault a >>= fun x => checked fault' b >>= fun y => pure (f x y)) =
      checked (fault.or fault') (f a b) :=
  checked_bind checked_map

theorem findSome?_cons_or {f : α → Option β} {a : α} {list : List α} :
    (a :: list).findSome? f = (f a).or (list.findSome? f) := by
  rw [List.findSome?_cons]
  cases f a <;> rfl

theorem if_checked (b : Bool) (x y : α) : (if b = true then checked fault x else pure y) =
    checked (if b = true then fault else none) (if b = true then x else y) := by
  cases b <;> rfl

theorem indexedM_checked {check : Nat → α → Except Fault (List Finding)} {against : α → Option Fault}
    {find : Nat → α → List Finding} {start : Nat} {list : List α}
    (h : ∀ i, ∀ a ∈ list, check i a = checked (against a) (find i a)) :
    indexedM check start list = checked (list.findSome? against) (indexed find start list) := by
  induction list generalizing start with
  | nil => rfl
  | cons a rest ih =>
    rw [indexedM, h start a List.mem_cons_self, ih fun i b hb => h i b (List.mem_cons_of_mem a hb),
      checked_map₂, findSome?_cons_or, indexed]

theorem eachM_checked {check : α → Except Fault (List Finding)} {against : α → Option Fault}
    {find : α → List Finding} {list : List α}
    (h : ∀ a ∈ list, check a = checked (against a) (find a)) :
    eachM check list = checked (list.findSome? against) (list.flatMap find) := by
  induction list with
  | nil => rfl
  | cons a rest ih =>
    rw [eachM, h a List.mem_cons_self, ih fun b hb => h b (List.mem_cons_of_mem a hb),
      checked_map₂, findSome?_cons_or, List.flatMap_cons]

theorem mapM_checked {see : α → Except Fault β} {against : α → Option Fault} {find : α → β}
    {list : List α} (h : ∀ a ∈ list, see a = checked (against a) (find a)) :
    list.mapM see = checked (list.findSome? against) (list.map find) := by
  induction list with
  | nil => rfl
  | cons a rest ih =>
    rw [List.mapM_cons, h a List.mem_cons_self, ih fun b hb => h b (List.mem_cons_of_mem a hb),
      checked_map₂, findSome?_cons_or, List.map_cons]

theorem allM_ok {ask : α → Except Fault Bool} {answer : α → Bool} {list : List α}
    (h : ∀ a ∈ list, ask a = .ok (answer a)) : list.allM ask = .ok (list.all answer) := by
  induction list with
  | nil => rfl
  | cons a rest ih =>
    rw [List.allM, h a List.mem_cons_self, List.all_cons,
      ih fun b hb => h b (List.mem_cons_of_mem a hb)]
    cases answer a <;> rfl

def everyPairFault? (against : α → α → Option Fault) : List α → Option Fault
  | [] => none
  | first :: rest => (rest.findSome? (against first)).or (everyPairFault? against rest)

theorem everyPairFault?_eq_none_iff {against : α → α → Option Fault} {list : List α} :
    everyPairFault? against list = none ↔ list.Pairwise fun a b => against a b = none := by
  induction list with
  | nil => simp [everyPairFault?]
  | cons a rest ih => simp [everyPairFault?, Option.or_eq_none_iff, ih]

theorem everyPairM_checked {check : α → α → Except Fault (List Finding)}
    {against : α → α → Option Fault} {find : α → α → List Finding}
    (h : ∀ a b, check a b = checked (against a b) (find a b)) (list : List α) :
    everyPairM check list = checked (everyPairFault? against list) (everyPair find list) := by
  induction list with
  | nil => rfl
  | cons a rest ih =>
    rw [everyPairM, eachM_checked fun b _ => h a b, ih, checked_map₂, everyPair, everyPairFault?]

end Steps

/-! ## Steps that may fail -/

/-- What stands against looking at a field of the record in a slot. -/
def lookFault? (field : Key) : Slot α → Option Fault
  | .number n => some (.fieldOfNumber field.name n)
  | _ => none

theorem look_eq (field : Key) (s : Slot α) : look field s = checked (lookFault? field s) s.get? := by
  cases s <;> rfl

theorem lookFault?_or (field field' : Key) (s : Slot α) (fault : Option Fault) :
    (lookFault? field s).or ((lookFault? field' s).or fault) = (lookFault? field s).or fault := by
  cases s <;> rfl

theorem inTable_eq (table : List String) (type : Json) :
    inTable table type = checked type.typeFault? (type.text?.any table.contains) := by
  rw [inTable]
  cases type.typeFault? <;> rfl

theorem tabled_eq {type : Json} (h : type.typeFault? = none) (table : List String)
    (check : Except Fault (List Finding)) :
    tabled table type check = if type.text?.any table.contains then check else .ok [] := by
  rw [tabled, inTable_eq, h]
  rfl

theorem typeFault?_of_hasCondition {type : Json} {v : Vocabulary} (h : v.hasCondition type = true) :
    type.typeFault? = none := by
  cases type with
  | str => rfl
  | _ => cases h

theorem typeFault?_of_hasAction {type : Json} {v : Vocabulary} (h : v.hasAction type = true) :
    type.typeFault? = none := by
  cases type with
  | str => rfl
  | _ => cases h

/-- What stands against a sort of names. -/
def sortFault? (names : List Name) : Option Fault :=
  match names.findSome? (·.number?), names.findSome? (·.text?) with
  | some n, some _ => some (.unordered n)
  | _, _ => none

theorem sortNames_eq (names : List Name) :
    sortNames names = checked (sortFault? names) (sortedNames names) := by
  rw [sortNames, sortFault?]
  cases names.findSome? (·.number?) <;> cases names.findSome? (·.text?) <;> rfl

theorem seenConditions_eq (r : Rule) :
    r.seenConditions = checked (lookFault? Field.conditions r.trigger) r.conditions := by
  rw [Rule.seenConditions, look_eq, checked_map]
  rfl

/-! ## The fieldwise check -/

section Fieldwise

variable {scope : Scope} {path : Path} {v : Vocabulary}

def regionFault? : Condition → Option Fault
  | .position _ _ region => lookFault? Field.x region
  | _ => none

def movementFault? : Action → Option Fault
  | .move _ movement => lookFault? Field.type movement
  | _ => none

def goalFault? : Action → Option Fault
  | .move _ (.value movement) => lookFault? Field.x movement.target
  | _ => none

def effectFault? : Action → Option Fault
  | .effect _ effect => lookFault? Field.type effect
  | _ => none

/-- What stands against the fieldwise check of a condition; one of an unsupported type is not looked
into. -/
def conditionFault? (v : Vocabulary) (c : Condition) : Option Fault :=
  if v.hasCondition c.kind then regionFault? c else none

/-- What stands against the fieldwise check of an action by itself. -/
def ownFault? (a : Action) : Option Fault :=
  (movementFault? a).or ((goalFault? a).or (effectFault? a))

mutual

/-- What stands against the fieldwise check of an action and of what it may pick; one of an
unsupported type is not looked into. -/
def actionFault? (v : Vocabulary) : Action → Option Fault
  | .choice options _ _ =>
    if v.hasAction (.str "randomAction") then optionsFault? v options else none
  | a => if v.hasAction a.kind then ownFault? a else none

def optionsFault? (v : Vocabulary) : List (ChoiceOption Action) → Option Fault
  | [] => none
  | ⟨a, _, _⟩ :: rest => (actionFault? v a).or (optionsFault? v rest)

end

/-- What stands against the fieldwise check of a rule: its operator, its conditions, its actions. -/
def ruleFault? (v : Vocabulary) (r : Rule) : Option Fault :=
  (lookFault? Field.operator r.trigger).or
    ((r.conditions.findSome? (conditionFault? v)).or (r.actions.findSome? (actionFault? v)))

/-- What stands against the fieldwise check of a rule-set: scales, initial positions, rules. -/
def fieldwiseFault? (v : Vocabulary) (g : Game) : Option Fault :=
  (g.layout.findSome? fun p => lookFault? Field.x p.scale).or
    ((g.objects.findSome? fun o => lookFault? Field.x o.initialPosition).or
      (g.rules.findSome? (ruleFault? v)))

theorem checkLayout_eq (g : Game) :
    checkLayout g = checked (g.layout.findSome? fun p => lookFault? Field.x p.scale) (layout g) := by
  have hplacement (i : Nat) (p : Placement) :
      checkPlacement i p = checked (lookFault? Field.x p.scale) (placement i p) := by
    rw [checkPlacement, look_eq, checked_map]
    rfl
  rw [checkLayout, indexedM_checked fun i p _ => hplacement i p, checked_map]
  rfl

theorem checkInitialPositions_eq (g : Game) : checkInitialPositions g =
    checked (g.objects.findSome? fun o => lookFault? Field.x o.initialPosition)
      (initialPositions g) := by
  refine indexedM_checked fun i o _ => ?_
  rw [look_eq, checked_map]

theorem checkConditionFields_eq (c : Condition) : checkConditionFields scope path c =
    checked (regionFault? c) (conditionFields scope path c) := by
  cases c with
  | position target area region =>
    rw [checkConditionFields, look_eq, checked_map]
    rfl
  | _ => rfl

theorem checkCondition_eq (c : Condition) : checkCondition scope path c =
    checked (conditionFault? scope.vocabulary c) (condition scope path c) := by
  rw [checkCondition, conditionFault?, condition]
  split
  · rename_i hsupported
    -- The table lists every type that asks something, and a supported type can be looked up in it.
    have hfields : tabled checkedConditions c.kind (checkConditionFields scope path c) =
        checked (regionFault? c) (conditionFields scope path c) := by
      rw [tabled_eq (typeFault?_of_hasCondition hsupported), checkConditionFields_eq]
      cases c with
      | unknown type extras => exact ite_self _
      | _ => rfl
    rw [hfields, checked_map]
  · rfl

theorem checkOwnAction_eq {a : Action} (h : a.kind.typeFault? = none) :
    checkOwnAction scope path a = checked (ownFault? a) (ownAction scope path a) := by
  cases a with
  | move target movement =>
    cases movement with
    | value m =>
      obtain ⟨type, goal, speed, duration, direction⟩ := m
      cases goal <;> rfl
    | _ => rfl
  | effect target effect => cases effect <;> rfl
  | unknown type extras =>
    -- Whether a table lists the type or not, nothing is asked of an action of an unknown one.
    rw [checkOwnAction, tabled_eq h, tabled_eq h]
    split <;> split <;> rfl
  | _ => rfl

theorem actionFault?_plain {a : Action} (h : a.isChoice = false) :
    actionFault? v a = if v.hasAction a.kind then ownFault? a else none := by
  rw [actionFault?]
  exact Action.ne_choice h

theorem optionsFault?_eq (options : List (ChoiceOption Action)) :
    optionsFault? v options = options.findSome? fun o => actionFault? v o.action := by
  induction options with
  | nil => rfl
  | cons o rest ih =>
    rw [optionsFault?, ih, findSome?_cons_or]

theorem checkOptions_eq (options : List (ChoiceOption Action))
    (h : ∀ o ∈ options, ∀ path, checkAction scope path o.action =
      checked (actionFault? scope.vocabulary o.action) (action scope path o.action)) (start : Nat) :
    checkOptions scope path start options =
      checked (optionsFault? scope.vocabulary options) (choiceOptions scope path start options) := by
  induction options generalizing start with
  | nil => rfl
  | cons o rest ih =>
    rw [checkOptions, h o List.mem_cons_self, ih fun o' ho' => h o' (List.mem_cons_of_mem o ho'),
      checked_map₂]
    rfl

theorem checkAction_eq (a : Action) : ∀ path, checkAction scope path a =
    checked (actionFault? scope.vocabulary a) (action scope path a) := by
  induction a using Action.nested_induction with
  | plain a hplain =>
    intro path
    have hchoice := Action.ne_choice hplain
    rw [checkAction, action, actionFault?_plain hplain]
    · split
      · rename_i hsupported
        exact checkOwnAction_eq (typeFault?_of_hasAction hsupported)
      · rfl
    · exact hchoice
    · exact hchoice
  | choice options mode weights ih =>
    intro path
    rw [checkAction, action, actionFault?, checkOwnAction_eq rfl, checkOptions_eq options ih, checked_map₂]
    exact if_checked ..

theorem checkRule_eq (index : Nat) (r : Rule) :
    checkRule v index r = checked (ruleFault? v r) (rule v index r) := by
  let path (i : Nat) : Path := [.name "script", .name "rules", .index index] ++
    [.name "triggers", .name "conditions", .index i]
  have hconditions : indexedM (fun i c => checkCondition ⟨v, r⟩ (path i) c) 0 r.conditions =
      checked (r.conditions.findSome? (conditionFault? v))
        (indexed (fun i c => condition ⟨v, r⟩ (path i) c) 0 r.conditions) :=
    indexedM_checked fun i c _ => checkCondition_eq c
  have hrun : checkRule v index r = checked ((lookFault? Field.operator r.trigger).or
      ((lookFault? Field.conditions r.trigger).or
        ((r.conditions.findSome? (conditionFault? v)).or (r.actions.findSome? (actionFault? v)))))
      (rule v index r) := by
    rw [checkRule, look_eq, seenConditions_eq, indexedM_checked fun i a _ => checkAction_eq a _]
    exact checked_bind (checked_bind ((congrArg (· >>= _) hconditions).trans checked_map₂))
  rw [hrun, lookFault?_or, ruleFault?]

/-- The fieldwise check fails at its first misplaced number, and otherwise finds what is to be found. -/
theorem fieldCheck_eq (v : Vocabulary) (g : Game) :
    fieldCheck v g = checked (fieldwiseFault? v g) (fieldwise v g) := by
  rw [fieldCheck, checkLayout_eq, checkInitialPositions_eq,
    indexedM_checked fun i r _ => checkRule_eq i r]
  exact checked_bind (checked_bind checked_map)

end Fieldwise

/-! ## The check between rules -/

section Rulewise

variable {g : Game}

def wiringFault? (r : Rule) : Option Fault :=
  (lookFault? Field.conditions r.trigger).or (r.allActions.findSome? movementFault?)

def allConditions (g : Game) : List Condition :=
  g.rules.flatMap (·.conditions)

def ownSortFault? (r : Rule) : Option Fault :=
  sortFault? (common r.shownObjects r.hiddenObjects)

def pairSortFault? (a b : Rule) : Option Fault :=
  (sortFault? (crossing a.shownObjects b.hiddenObjects a.hiddenObjects b.shownObjects)).or
    (sortFault? (crossing a.raisedCounters b.loweredCounters a.loweredCounters b.raisedCounters))

def groupSortFault? (rules : List Rule) : Option Fault :=
  (bySignature rules).findSome? fun (_, group) => everyPairFault? pairSortFault? group

/-- What stands against the check of conflicts: sorts inside rules, regions in signatures, sorts between
rules of one signature. -/
def conflictFault? (g : Game) : Option Fault :=
  (g.rules.findSome? ownSortFault?).or
    (((allConditions g).findSome? regionFault?).or (groupSortFault? g.rules))

/-- What stands against the check between rules: the wiring, then types that cannot be looked up, then
the conflicts. -/
def rulewiseFault? (g : Game) : Option Fault :=
  (g.rules.findSome? wiringFault?).or
    (((allConditions g).findSome? (·.kind.typeFault?)).or (conflictFault? g))

/-- What stands against the lookups of the check between rules, its sorts left aside. -/
def lookupFault? (g : Game) : Option Fault :=
  (g.rules.findSome? wiringFault?).or
    (((allConditions g).findSome? (·.kind.typeFault?)).or ((allConditions g).findSome? regionFault?))

theorem findSome?_allConditions (against : Condition → Option Fault) :
    (g.rules.findSome? fun r => r.conditions.findSome? against) =
      (allConditions g).findSome? against := by
  rw [allConditions]
  induction g.rules with
  | nil => rfl
  | cons r rest ih => rw [findSome?_cons_or, ih, List.flatMap_cons, List.findSome?_append]

theorem seen_eq (g : Game) : g.seen = checked (g.rules.findSome? wiringFault?)
    (g.rules.map fun r => ⟨r, r.conditions, r.draggedObjects⟩) := by
  refine mapM_checked fun r _ => ?_
  have hdragged (a : Action) : r.seenDragged? a = checked (movementFault? a)
      (if a.followsDrag then (r.objectOf a).name? else none) := by
    cases a with
    | move target movement => cases movement <;> rfl
    | _ => rfl
  have hobjects : (r.allActions.map fun a =>
      if a.followsDrag then (r.objectOf a).name? else none).reduceOption = r.draggedObjects := by
    rw [Rule.draggedObjects, List.filterMap_filter]
    exact List.filterMap_map ..
  rw [Rule.seen, seenConditions_eq, mapM_checked fun a _ => hdragged a, checked_map₂, hobjects,
    wiringFault?]

theorem readers_seen (counter : Name) :
    Seen.readers (g.rules.map fun r => ⟨r, r.conditions, r.draggedObjects⟩) counter =
      g.counterReaders counter := by
  rw [Seen.readers, List.filter_map, List.map_map]
  exact List.map_id _

theorem allDragged_seen :
    Seen.allDragged (g.rules.map fun r => ⟨r, r.conditions, r.draggedObjects⟩) = g.dragged :=
  List.flatMap_map ..

theorem checkConditionReferences_eq (r : Rule) (path : Path) (c : Condition) :
    checkConditionReferences g r path c =
      checked c.kind.typeFault? (conditionReferences g r path c) := by
  rw [checkConditionReferences, inTable_eq, checked_map]
  cases c with
  | unknown type extras => exact congrArg _ (ite_self [])
  | _ => rfl

theorem checkReferences_eq (g : Game) : checkReferences g =
    checked ((allConditions g).findSome? (·.kind.typeFault?)) (references g) := by
  have hrule (index : Nat) (r : Rule) : checkRuleReferences g index r =
      checked (r.conditions.findSome? (·.kind.typeFault?)) (ruleReferences g index r) := by
    rw [checkRuleReferences, indexedM_checked fun i c _ => checkConditionReferences_eq r _ c,
      checked_map]
    rfl
  rw [checkReferences, indexedM_checked fun i r _ => hrule i r, checked_map, findSome?_allConditions]
  rfl

theorem checkAutomaticOutcomes_eq (h : (allConditions g).findSome? (·.kind.typeFault?) = none) :
    checkAutomaticOutcomes g = .ok (automaticOutcomes g) := by
  have hrule : ∀ r ∈ gated (g.rulesThatMay "success"),
      checkAutomaticSuccess g r = checked none (automaticSuccess g r) := by
    intro r hr
    have hmem : r ∈ g.rules := (List.mem_filter.mp (List.mem_filter.mp hr).1).1
    have hall : r.conditions.allM (fun c =>
        return (← inTable automaticConditions c.kind) && !g.fedByPlayer .any c) =
          .ok (r.conditions.all fun c => isAutomatic c && !g.fedByPlayer .any c) := by
      refine allM_ok fun c hc => ?_
      have htype := List.findSome?_eq_none_iff.mp h c (List.mem_flatMap.mpr ⟨r, hmem, hc⟩)
      rw [inTable_eq, htype]
      rfl
    rw [checkAutomaticSuccess, hall]
    rfl
  have hnone : (gated (g.rulesThatMay "success")).findSome? (fun _ => (none : Option Fault)) = none :=
    List.findSome?_eq_none_iff.mpr fun _ _ => rfl
  rw [checkAutomaticOutcomes, eachM_checked hrule, hnone, automaticOutcomes]
  split <;> rfl

theorem checkConflicts_eq (g : Game) :
    checkConflicts g = checked (conflictFault? g) (conflicts g) := by
  have hown (r : Rule) : checkOwnConflicts r = checked (ownSortFault? r) (ownConflicts r) := by
    rw [checkOwnConflicts, sortNames_eq, checked_map]
    rfl
  have hpair (signature : String) (a b : Rule) : checkOppositions signature a b =
      checked (pairSortFault? a b) (oppositions signature a b) := by
    rw [checkOppositions, sortNames_eq, sortNames_eq, checked_map₂]
    rfl
  have hkey (r : Rule) (c : Condition) : seenKey r c = checked (regionFault? c) (r.keyOf c) := by
    cases c with
    | position target area region => cases region <;> rfl
    | _ => rfl
  have hsigned (r : Rule) :
      signed r = checked (r.conditions.findSome? regionFault?) (r.signature, r) := by
    rw [signed, mapM_checked fun c _ => hkey r c, checked_map]
    rfl
  rw [checkConflicts, eachM_checked fun r _ => hown r, mapM_checked fun r _ => hsigned r,
    findSome?_allConditions]
  refine checked_bind (checked_bind ?_)
  exact (congrArg (· >>= _) (eachM_checked fun group _ => everyPairM_checked (hpair group.1) group.2)).trans
    checked_map

/-- The check between rules fails at its first misplaced number, type that is no key or sort without an
order, and otherwise finds what is to be found. -/
theorem rulewise_eq (g : Game) : rulewise g = checked (rulewiseFault? g) (rulewiseFindings g) := by
  rw [rulewise, rulewiseFault?, seen_eq, checkReferences_eq, checkConflicts_eq]
  refine checked_bind ?_
  rw [allDragged_seen]
  cases htypes : (allConditions g).findSome? (·.kind.typeFault?) with
  | some fault => rfl
  | none =>
    have huses : checkCounterUses g (g.rules.map fun r => ⟨r, r.conditions, r.draggedObjects⟩) =
        counterUses g := by
      rw [checkCounterUses, counterUses]
      simp only [readers_seen]
      rfl
    rw [checkAutomaticOutcomes_eq htypes, huses]
    exact checked_map

end Rulewise

/-! ## Results -/

section Results

variable {v : Vocabulary} {g : Game} {findings : List Finding}

theorem fieldCheck_ok_iff :
    fieldCheck v g = .ok findings ↔ fieldwiseFault? v g = none ∧ fieldwise v g = findings := by
  rw [fieldCheck_eq, checked_ok_iff]

theorem rulewise_ok_iff :
    rulewise g = .ok findings ↔ rulewiseFault? g = none ∧ rulewiseFindings g = findings := by
  rw [rulewise_eq, checked_ok_iff]

theorem validate_eq (v : Vocabulary) (g : Game) : validate v g =
    checked ((fieldwiseFault? v g).or (rulewiseFault? g)) (fieldwise v g ++ rulewiseFindings g) := by
  rw [validate, fieldCheck_eq, rulewise_eq, checked_map₂]

theorem validate_ok_iff : validate v g = .ok findings ↔ fieldwiseFault? v g = none ∧
    rulewiseFault? g = none ∧ findings = fieldwise v g ++ rulewiseFindings g := by
  rw [validate_eq, checked_ok_iff, Option.or_eq_none_iff, and_assoc, eq_comm (a := findings)]

end Results

end TouchGame.Check

import TouchGame.Check.Validation

/-!
# What the checks find

The checks once more, without the lookups and sorts that may fail: a number in place of a record counts as
nothing, a type that is no key is in no table, and names have an order of some kind. Where nothing stands
against a check, it finds what stands here (`Check.fieldCheck_eq`, `Check.rulewise_eq`), so what it finds is
a matter of lists.

* `Check.fieldwise` : field by field.
* `Check.rulewiseFindings` : between rules.
-/

namespace TouchGame

namespace Check

/-! ## Field by field -/

/-- A placed object: its position, then its scale. -/
def placement (index : Nat) (p : Placement) : List Finding :=
  let path : Path := [.name "script", .name "layout", .name "objects", .index index]
  (axes p.position).flatMap (fun (axis, value) => placedCoordinate path p.object axis value) ++
    pointFindings (placedScale path p.object) p.scale.get?

/-- Every placed object, then the objects that are placed more than once. -/
def layout (g : Game) : List Finding :=
  indexed placement 0 g.layout ++ placedTwice g

def initialPositions (g : Game) : List Finding :=
  indexed (fun index (o : ObjectPlan) =>
    pointFindings (initialCoordinate index o.id) o.initialPosition.get?) 0 g.objects

/-- What the type of a condition asks of its fields. -/
def conditionFields (scope : Scope) (path : Path) : Condition → List Finding
  | .position target _ region =>
    regionFields scope path region.get? ++ needsTarget scope path "position" target
  | c => plainConditionFields scope path c

def condition (scope : Scope) (path : Path) (c : Condition) : List Finding :=
  if scope.vocabulary.hasCondition c.kind then
    conditionEnumFindings scope path c ++ conditionFields scope path c
  else [unsupportedCondition scope path c]

/-- The enumerated fields of an action. -/
def actionEnums : Action → List (List String × Slot String)
  | .move _ movement => movementEnums movement.get?
  | .counter _ operation _ => [(["operation"], operation)]
  | .effect _ effect => effectEnums effect.get?
  | .choice _ mode _ => [(["selectionMode"], mode)]
  | _ => []

/-- A movement: its speed, its duration, and the point it leads to. -/
def movement (scope : Scope) (path : Path) (m : Movement) : List Finding :=
  movementPace scope path m ++ goalFields scope path m.target.get?

/-- What the type of an action asks of its fields. -/
def actionFields (scope : Scope) (path : Path) : Action → List Finding
  | .move _ (.value m) => movement scope (path ++ [.name "movement"]) m
  | .effect _ (.value e) => effect scope (path ++ [.name "effect"]) e
  | a => plainActionFields scope path a

def ownAction (scope : Scope) (path : Path) (a : Action) : List Finding :=
  enumFindings scope path a.kind.shown (actionEnums a) ++ needsObject scope path a ++
    actionFields scope path a

mutual

/-- An action at a path, with all that it may pick. -/
def action (scope : Scope) (path : Path) : Action → List Finding
  | .choice options mode weights =>
    if scope.vocabulary.hasAction (.str "randomAction") then
      ownAction scope path (.choice options mode weights) ++ choiceOptions scope path 0 options
    else [unsupportedAction scope path (.choice options mode weights)]
  | a =>
    if scope.vocabulary.hasAction a.kind then ownAction scope path a
    else [unsupportedAction scope path a]

/-- The options of a choice from an index on. -/
def choiceOptions (scope : Scope) (path : Path) (index : Nat) :
    List (ChoiceOption Action) → List Finding
  | [] => []
  | ⟨a, _, chance⟩ :: rest =>
    let place := path ++ [.name "actions", .index index]
    ifPresent chance (probability scope (place ++ [.name "probability"])) ++
      action scope (place ++ [.name "action"]) a ++ choiceOptions scope path (index + 1) rest

end

/-- A rule at an index: its operator, its conditions, its actions. -/
def rule (v : Vocabulary) (index : Nat) (r : Rule) : List Finding :=
  let scope : Scope := ⟨v, r⟩
  let path : Path := [.name "script", .name "rules", .index index]
  triggerOperator scope path r.trigger.get? ++
  indexed (fun i c => condition scope (path ++ [.name "triggers", .name "conditions", .index i]) c)
    0 r.conditions ++
  indexed (fun i a => action scope (path ++ [.name "actions", .index i]) a) 0 r.actions

def fieldwise (v : Vocabulary) (g : Game) : List Finding :=
  ruleIds g ++ layout g ++ initialPositions g ++ indexed (rule v) 0 g.rules

end Check

/-! ## The wiring -/

/-- Whether an action lets an object follow the player's drag. -/
def Action.followsDrag : Action → Bool
  | .followDrag .. => true
  | .move _ (.value movement) => movement.type == .value "followDrag"
  | _ => false

/-- The objects that follow the player's drag by an action of the rule. -/
def Rule.draggedObjects (r : Rule) : List Name :=
  (r.allActions.filter (·.followsDrag)).filterMap fun a => (r.objectOf a).name?

namespace Game

def dragged (g : Game) : List Name :=
  g.rules.flatMap (·.draggedObjects)

def counterReaders (g : Game) (counter : Name) : List Rule :=
  g.rules.filter fun r => r.conditions.any (·.counterName? == some counter)

end Game

namespace Check

/-! ## Between rules -/

def conditionReferences (g : Game) (r : Rule) (path : Path) (c : Condition) : List Finding :=
  match c with
  | .counter name .. => counterField g r name path
  | c => targetReference g r path c

/-- The references of a rule at an index. -/
def ruleReferences (g : Game) (index : Nat) (r : Rule) : List Finding :=
  let path : Path := [.name "script", .name "rules", .index index]
  ruleReference g index r ++
    indexed (fun i c =>
      conditionReferences g r (path ++ [.name "triggers", .name "conditions", .index i]) c)
      0 r.conditions ++
    indexed (fun i a => pickedReferences g r (path ++ [.name "actions", .index i]) a) 0 r.actions

def references (g : Game) : List Finding :=
  indexed (placementReference g) 0 g.layout ++ indexed (ruleReferences g) 0 g.rules

def isAutomatic (c : Condition) : Bool :=
  c.kindText?.any automaticConditions.contains

def automaticSuccess (g : Game) (r : Rule) : List Finding :=
  if r.conditions.all fun c => isAutomatic c && !g.fedByPlayer .any c then [autoSuccess r] else []

def automaticOutcomes (g : Game) : List Finding :=
  (if (g.rulesThatMay "failure").any (·.gatedByPlayer .any) then []
    else (gated (g.rulesThatMay "success")).flatMap (automaticSuccess g)) ++ automaticFailures g

/-- Some success depends on a touch, on an object that follows the player's drag, or on what those
change. -/
def playerAction (g : Game) : List Finding :=
  checkPlayerAction g g.dragged

def ownConflicts (r : Rule) : List Finding :=
  ownOutcomes r ++ ownVisibility r (sortedNames (common r.shownObjects r.hiddenObjects))

/-- What one list has in common with another one, or a third with a fourth, in order. -/
def crossed (a b c d : List Name) : List Name :=
  sortedNames (crossing a b c d)

/-- Opposite actions of two rules on one trigger. -/
def oppositions (signature : String) (first second : Rule) : List Finding :=
  opposition signature first second
    (crossed first.shownObjects second.hiddenObjects first.hiddenObjects second.shownObjects)
    (crossed first.raisedCounters second.loweredCounters first.loweredCounters second.raisedCounters)

def everyPair (check : α → α → List Finding) : List α → List Finding
  | [] => []
  | first :: rest => rest.flatMap (check first) ++ everyPair check rest

/-- The rules of each signature, in the order in which signatures first occur. -/
def bySignature (rules : List Rule) : List (String × List Rule) :=
  grouped (rules.map fun r => (r.signature, r))

/-- Opposite actions of a rule-set: within rules, then between rules of one signature. -/
def conflicts (g : Game) : List Finding :=
  g.rules.flatMap ownConflicts ++
    (bySignature g.rules).flatMap fun (signature, group) => everyPair (oppositions signature) group

def counterUsage (g : Game) (index : Nat) (c : Counter) : List Finding :=
  counterUse index c (g.counterReaders c.id) (g.counterWriters c.id)

def counterUses (g : Game) : List Finding :=
  indexed (counterUsage g) 0 g.counters

/-- The findings between rules. -/
def rulewiseFindings (g : Game) : List Finding :=
  references g ++ outcomesExist g ++ instantOutcomes g ++ automaticOutcomes g ++ playerAction g ++
    conflicts g ++ counterUses g ++ successReachability g

end Check

end TouchGame

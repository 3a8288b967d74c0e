import TouchGame.Check.Look

/-!
# Checks of references

Every identifier that a rule-set uses names something that exists: objects and sounds of the asset
plan, counters of the script. Empty identifiers and the special targets refer to nothing.
-/

namespace TouchGame.Check

def objectReference? (field : Slot String) : Option String :=
  field.text?.filter fun id => !specialTargets.contains id

def danglingObject (message : String) (location : Location) : Finding :=
  .critical .invalidObjectId message "Use an object id from assetPlan.objects" location

/-- An object field of a rule. -/
def objectField (g : Game) (field : Slot String) (message : String → String)
    (location : String → Location) : List Finding :=
  match objectReference? field with
  | some id => if g.objectIds.contains id then [] else [danglingObject (message id) (location id)]
  | none => []

def isAmong (ids : List String) (name : Name) : Bool :=
  name.text?.any ids.contains

/-- A counter field of a rule. -/
def counterField (g : Game) (r : Rule) (field : Slot String) (path : Path) : List Finding :=
  match field.name? with
  | some name =>
    if isAmong g.counterIds name then []
    else [.critical .invalidCounterName
      s!"Rule \"{r.id}\": counter \"{name.shown}\" is not defined"
      s!"Define counter \"{name.shown}\" in script.counters"
      ⟨path ++ [.name "counter_name"], some r.id, some name.shown⟩]
  | none => []

/-- A sound field of a rule. -/
def soundField (g : Game) (r : Rule) (field : Slot String) (path : Path) : List Finding :=
  match field.name? with
  | some sound =>
    if isAmong g.soundIds sound then []
    else [.critical .undefinedSoundId
      s!"Rule \"{r.id}\": sound \"{sound.shown}\" is not defined in the asset plan"
      "Reference a defined sound or add it to assetPlan.sounds"
      ⟨path ++ [.name "sound_id"], some r.id, some sound.shown⟩]
  | none => []

def targetedConditions : List String :=
  ["touch", "collision", "position", "animation", "objectState"]

/-- The target of a condition of such a type. -/
def targetReference (g : Game) (r : Rule) (path : Path) (c : Condition) : List Finding :=
  match c.target? with
  | some target =>
    objectField g target
      (fun id => s!"Rule \"{r.id}\": {c.kind.shown} condition target \"{id}\" does not exist")
      (fun id => ⟨path ++ [.name "target"], some r.id, some id⟩)
  | none => []

def counterReference (g : Game) (r : Rule) (path : Path) : Condition → List Finding
  | .counter name .. => counterField g r name path
  | _ => []

def checkConditionReferences (g : Game) (r : Rule) (path : Path) (c : Condition) :
    Except Fault (List Finding) :=
  return if ← inTable targetedConditions c.kind then targetReference g r path c
    else counterReference g r path c

/-- The references of an action by itself. -/
def actionReferences (g : Game) (r : Rule) (path : Path) (a : Action) : List Finding :=
  (match a.target? with
  | some target =>
    objectField g target
      (fun id => s!"Rule \"{r.id}\": {a.kind.shown} action targetId \"{id}\" does not exist")
      (fun id => ⟨path ++ [.name "target_id"], some r.id, some id⟩)
  | none => []) ++
  match a with
  | .move _ (.value movement) =>
    match movement.target with
    | .value (.object id) =>
      objectField g (.value id) (fun id => s!"Rule \"{r.id}\": move target \"{id}\" does not exist")
        (fun id => ⟨path ++ [.name "movement", .name "target"], some r.id, some id⟩)
    | _ => []
  | .counter name .. => counterField g r name path
  | .playSound sound _ | .stopSound sound => soundField g r sound path
  | _ => []

/-- The references of an action, and behind them those of what it may pick. -/
def pickedReferences (g : Game) (r : Rule) (path : Path) (a : Action) : List Finding :=
  actionReferences g r path a ++
    indexed (fun i picked =>
      actionReferences g r (path ++ [.name "actions", .index i, .name "action"]) picked) 0 a.picks

/-- The object of a rule at an index. -/
def ruleReference (g : Game) (index : Nat) (r : Rule) : List Finding :=
  objectField g r.targetObject
    (fun id => s!"Rule \"{r.id}\": targetObjectId \"{id}\" does not exist")
    (fun id => ⟨[.name "script", .name "rules", .index index, .name "target_object_id"], some r.id,
      some id⟩)

/-- The references of a rule at an index. -/
def checkRuleReferences (g : Game) (index : Nat) (r : Rule) : Except Fault (List Finding) := do
  let path : Path := [.name "script", .name "rules", .index index]
  let conditions ← indexedM (fun i c =>
    checkConditionReferences g r (path ++ [.name "triggers", .name "conditions", .index i]) c)
    0 r.conditions
  return ruleReference g index r ++ conditions ++
    indexed (fun i a => pickedReferences g r (path ++ [.name "actions", .index i]) a) 0 r.actions

/-- The reference of a placed object at an index. -/
def placementReference (g : Game) (index : Nat) (p : Placement) : List Finding :=
  if g.objectIds.contains p.object then []
  else [danglingObject s!"Layout object \"{p.object}\" is not in the asset plan"
    ⟨[.name "script", .name "layout", .name "objects", .index index, .name "object_id"], none,
      some p.object⟩]

def checkReferences (g : Game) : Except Fault (List Finding) :=
  return indexed (placementReference g) 0 g.layout ++ (← indexedM (checkRuleReferences g) 0 g.rules)

end TouchGame.Check

import TouchGame.Check.Conditions

/-!
# Checks of actions

An action has a supported type, supported values in its enumerated fields, an object where it works
on one, the fields its type needs, and numbers within their limits. The actions that a choice may
pick are checked in the same way, to any depth.
-/

namespace TouchGame.Check

/-- The enumerated fields of a movement, as keys inside the document of its action. -/
def movementEnums : Option Movement → List (List String × Slot String)
  | some m => [(["movement", "type"], m.type), (["movement", "direction"], m.direction)]
  | none => []

def effectEnums : Option Effect → List (List String × Slot String)
  | some e => [(["effect", "type"], e.type)]
  | none => []

/-- The enumerated fields of an action. -/
def checkEnums : Action → Except Fault (List (List String × Slot String))
  | .move _ movement => return movementEnums (← look Field.type movement)
  | .counter _ operation _ => return [(["operation"], operation)]
  | .effect _ effect => return effectEnums (← look Field.type effect)
  | .choice _ mode _ => return [(["selectionMode"], mode)]
  | _ => return []

/-- A duration, which is positive. -/
def positiveDuration (scope : Scope) (path : Path) (value : Number) : List Finding :=
  if value.le 0 then
    [.critical .invalidDuration (scope.message s!"duration ({value.text}) must be positive")
      "Use a positive duration in seconds" (scope.place path)]
  else []

/-- The speed of a movement. -/
def movementSpeed (scope : Scope) (path : Path) (speed : Number) : List Finding :=
  let fix := "Use a speed between 0.5 and 15.0"
  if speed.le 0 then
    [.critical .invalidSpeed (scope.message s!"move speed ({speed.text}) must be positive") fix
      (scope.place path)]
  else if speed.within Limits.slowest Limits.fastest then []
  else
    [.warning .unusualSpeed
      (scope.message s!"move speed ({speed.text}) is outside the recommended 0.5-15.0") fix
      (scope.place path)]

/-- One coordinate of the point that a movement leads to. -/
def goalCoordinate (scope : Scope) (path : Path) (axis : String) (value : Number) : List Finding :=
  if outsideUnit value then
    [.critical .invalidCoordinates
      (scope.message s!"move target {axis} ({value.text}) is outside 0.0-1.0")
      "Move to a point inside the stage"
      (scope.place (path ++ [.name "target", .name axis]))]
  else []

def goalFields (scope : Scope) (path : Path) : Option Goal → List Finding
  | some (.point p) => (axes p).flatMap fun (axis, value) => goalCoordinate scope path axis value
  | _ => []

def movementPace (scope : Scope) (path : Path) (m : Movement) : List Finding :=
  ifPresent m.speed (movementSpeed scope (path ++ [.name "speed"])) ++
    ifPresent m.duration (positiveDuration scope (path ++ [.name "duration"]))

/-- A movement: its speed, its duration, and the point it leads to. -/
def checkMovement (scope : Scope) (path : Path) (m : Movement) : Except Fault (List Finding) :=
  return movementPace scope path m ++ goalFields scope path (← look Field.x m.target)

/-- How long a visual effect lasts. -/
def effectDuration (scope : Scope) (path : Path) (value : Number) : List Finding :=
  if value.le 0 then
    [.critical .invalidEffectDuration
      (scope.message s!"effect duration ({value.text}) must be positive")
      "Use a duration up to 5 seconds" (scope.place path)]
  else if Limits.longestEffect.lt value then
    [.warning .longEffectDuration
      (scope.message s!"effect duration ({value.text}) exceeds 5 seconds")
      "Keep effects at or below 5 seconds" (scope.place path)]
  else []

/-- How much a visual effect scales. -/
def effectAmount (scope : Scope) (path : Path) (value : Number) : List Finding :=
  if value.le 0 then
    [.critical .invalidScaleAmount
      (scope.message s!"effect scaleAmount ({value.text}) must be positive")
      "Use a scale amount up to 3" (scope.place path)]
  else if Limits.largestAmount.lt value then
    [.warning .largeScaleAmount (scope.message s!"effect scaleAmount ({value.text}) exceeds 3")
      "Keep scale amount at or below 3" (scope.place path)]
  else []

def effect (scope : Scope) (path : Path) (e : Effect) : List Finding :=
  ifPresent e.duration (effectDuration scope (path ++ [.name "duration"])) ++
  ifPresent e.scaleAmount (effectAmount scope (path ++ [.name "scale_amount"]))

/-- Points to award. -/
def awardedPoints (scope : Scope) (path : Path) (value : Number) : List Finding :=
  if value.lt 0 then
    [.warning .negativePoints (scope.message s!"addScore points ({value.text}) is negative")
      "Award a positive number of points" (scope.place path)]
  else []

/-- The volume of a sound. -/
def soundVolume (scope : Scope) (path : Path) (value : Number) : List Finding :=
  if outsideUnit value then
    [.critical .invalidVolume
      (scope.message s!"playSound volume ({value.text}) is outside 0.0-1.0")
      "Use a volume between 0.0 and 1.0" (scope.place path)]
  else []

/-- An action that names a flag. -/
def needsFlag (scope : Scope) (path : Path) (type : String) (flag : Slot String) : List Finding :=
  if flag.textOr "" == "" then
    [.critical .missingFlagId (scope.message s!"{type} action has no flagId")
      "Name the flag this action changes" (scope.place (path ++ [.name "flag_id"]))]
  else []

/-- What the types of actions other than movements and visual effects ask of their fields. -/
def plainActionFields (scope : Scope) (path : Path) : Action → List Finding
  | .hide _ _ duration | .reveal _ _ duration =>
    ifPresent duration (positiveDuration scope (path ++ [.name "duration"]))
  | .counter name operation value =>
    (if name.textOr "" == "" then
      [.critical .missingCounterName (scope.message "counter action has no counterName")
        "Name the counter this action changes" (scope.place (path ++ [.name "counter_name"]))]
    else []) ++
    (if operation == .value "set" && value.isNone then
      [.critical .missingCounterValue (scope.message "counter \"set\" operation has no value")
        "Add the value to set the counter to" (scope.about (path ++ [.name "value"]) name.get?)]
    else [])
  | .addScore points =>
    let place := path ++ [.name "points"]
    match points with
    | none =>
      [.critical .missingPoints (scope.message "addScore action has no points")
        "Add the number of points to award" (scope.place place)]
    | some value => awardedPoints scope place value
  | .setFlag flag _ => needsFlag scope path "setFlag" flag
  | .toggleFlag flag => needsFlag scope path "toggleFlag" flag
  | .playSound sound volume =>
    (if sound.textOr "" == "" then
      [.critical .missingSoundId (scope.message "playSound action has no soundId")
        "Reference a sound from the asset plan" (scope.place (path ++ [.name "sound_id"]))]
    else []) ++
    ifPresent volume (soundVolume scope (path ++ [.name "volume"]))
  | .switchAnimation _ index .. =>
    if index.isNone then
      [.critical .missingAnimationIndex (scope.message "switchAnimation action has no animationIndex")
        "Add the index of the animation to switch to"
        (scope.place (path ++ [.name "animation_index"]))]
    else []
  | .applyForce _ force =>
    if force.isEmpty then
      [.critical .missingForce (scope.message "applyForce action has no force vector")
        "Add a force \x7bx, y\x7d" (scope.place (path ++ [.name "force"]))]
    else []
  | .applyImpulse _ impulse =>
    if impulse.isEmpty then
      [.critical .missingImpulse (scope.message "applyImpulse action has no impulse vector")
        "Add an impulse \x7bx, y\x7d" (scope.place (path ++ [.name "impulse"]))]
    else []
  | _ => []

/-- What the type of an action asks of its fields. -/
def checkActionFields (scope : Scope) (path : Path) : Action → Except Fault (List Finding)
  | .move _ movement => do
    match ← look Field.speed movement with
    | some m => checkMovement scope (path ++ [.name "movement"]) m
    | none => return []
  | .effect _ spec => do
    match ← look Field.duration spec with
    | some e => return effect scope (path ++ [.name "effect"]) e
    | none => return []
  | a => return plainActionFields scope path a

/-- The findings about enumerated fields of an action of a type. -/
def enumFindings (scope : Scope) (path : Path) (type : String)
    (enums : List (List String × Slot String)) : List Finding :=
  enums.flatMap fun (keys, value) =>
    let field := Text.joined "." keys
    enumerated scope s!"action.{type}.{field}" value
      (path ++ keys.map fun key => .name (Text.snakeCase key)) s!"{type} {field}"

/-- An action that needs an object, its own or the rule's. -/
def needsObject (scope : Scope) (path : Path) (a : Action) : List Finding :=
  if a.worksOn?.isSome && (scope.rule.objectOf a).isEmpty then
    [.critical .missingTargetId
      (scope.message s!"{a.kind.shown} action has no targetId and the rule has no targetObjectId")
      "Set targetId to the object this action affects" (scope.place (path ++ [.name "target_id"]))]
  else []

/-- The types of actions that work on an object and fall back on the rule's own. -/
def targetedActions : List String := [
  "hide", "show", "move", "followDrag", "applyForce", "applyImpulse", "effect", "switchAnimation",
  "playAnimation"]

/-- The types of actions that ask something of their fields. -/
def checkedActions : List String := [
  "move", "hide", "show", "counter", "addScore", "effect", "setFlag", "toggleFlag", "playSound",
  "switchAnimation", "applyForce", "applyImpulse"]

/-- An action at a path by itself, what it may pick left aside. -/
def checkOwnAction (scope : Scope) (path : Path) (a : Action) : Except Fault (List Finding) := do
  let enums ← checkEnums a
  let lacking ← tabled targetedActions a.kind (.ok (needsObject scope path a))
  let fields ← tabled checkedActions a.kind (checkActionFields scope path a)
  return enumFindings scope path a.kind.shown enums ++ lacking ++ fields

/-- An action of an unsupported type. -/
def unsupportedAction (scope : Scope) (path : Path) (a : Action) : Finding :=
  let type := a.kind.shown
  .critical .invalidActionType (scope.message s!"action type \"{type}\" is not supported")
    s!"Use one of the supported action types ({scope.vocabulary.actionListing})"
    (scope.about (path ++ [.name "type"]) (some type))

mutual

/-- An action at a path, with all that it may pick. -/
def checkAction (scope : Scope) (path : Path) : Action → Except Fault (List Finding)
  | .choice options mode weights =>
    if scope.vocabulary.hasAction (.str "randomAction") then
      return (← checkOwnAction scope path (.choice options mode weights)) ++
        (← checkOptions scope path 0 options)
    else return [unsupportedAction scope path (.choice options mode weights)]
  | a =>
    if scope.vocabulary.hasAction a.kind then checkOwnAction scope path a
    else return [unsupportedAction scope path a]

/-- The options of a choice from an index on. -/
def checkOptions (scope : Scope) (path : Path) (index : Nat) :
    List (ChoiceOption Action) → Except Fault (List Finding)
  | [] => return []
  | ⟨a, _, chance⟩ :: rest => do
    let place := path ++ [.name "actions", .index index]
    return ifPresent chance (probability scope (place ++ [.name "probability"])) ++
      (← checkAction scope (place ++ [.name "action"]) a) ++
      (← checkOptions scope path (index + 1) rest)

end

end TouchGame.Check

import TouchGame.Check.Layout
import TouchGame.Vocabulary

/-!
# Checks of conditions

A condition has a supported type, supported values in its enumerated fields, the fields its type
needs, and numbers within their limits. A condition of an unsupported type has no other finding.
-/

namespace TouchGame.Check

/-- What the checks of a rule's parts refer to. -/
structure Scope where
  vocabulary : Vocabulary
  rule : Rule

namespace Scope

/-- A message about the rule. -/
def message (scope : Scope) (text : String) : String :=
  s!"Rule \"{scope.rule.id}\": {text}"

def place (scope : Scope) (path : Path) : Location :=
  ⟨path, some scope.rule.id, none⟩

def about (scope : Scope) (path : Path) (subject : Option String) : Location :=
  ⟨path, some scope.rule.id, subject⟩

end Scope

/-- A value that its field does not take. -/
def enumerated (scope : Scope) (field : String) (value : Slot String) (path : Path)
    (label : String) : List Finding :=
  match scope.vocabulary.allowed? field with
  | none => []
  | some allowed =>
    let refused := match value with
      | .empty => false
      | .value s => !allowed.contains s
      | .number _ => true
    if refused then
      [.critical .invalidParameterValue (scope.message s!"{label} \"{value.shown}\" is not supported")
        ("Use one of: " ++ Vocabulary.listing allowed) (scope.about path (some value.shown))]
    else []

/-- A probability. -/
def probability (scope : Scope) (path : Path) (value : Number) : List Finding :=
  if outsideUnit value then
    [.critical .invalidProbability
      (scope.message s!"probability ({value.text}) is outside 0.0-1.0")
      "Use a probability between 0.0 and 1.0" (scope.place path)]
  else []

/-- The enumerated fields of a condition: those that hold a text, apart from type and target. -/
def conditionEnums (c : Condition) : List (String × String) :=
  (c.part.tree.members.filter fun (key, _) => key.wire != "type" && key.wire != "target").filterMap
    fun (key, member) => member.text?.map fun value => (key.wire, value)

/-- A condition that needs a target, its own or the rule's. -/
def needsTarget (scope : Scope) (path : Path) (type : String) (target : Slot String) :
    List Finding :=
  if (scope.rule.resolve target).isEmpty then
    [.critical .missingTargetId
      (scope.message s!"{type} condition has no target and the rule has no targetObjectId")
      "Set the condition target or the rule's targetObjectId" (scope.place (path ++ [.name "target"]))]
  else []

/-- The seconds of a timer. -/
def timerSeconds (scope : Scope) (path : Path) (value : Number) : List Finding :=
  let location := scope.place (path ++ [.name "seconds"])
  if value.lt 0 then
    [.critical .invalidTimeSeconds (scope.message s!"time seconds ({value.text}) is negative")
      "Use 0-60 seconds" location]
  else if Limits.longestTime.lt value then
    [.warning .invalidTimeSeconds (scope.message s!"time seconds ({value.text}) exceeds 60")
      "Use 0-60 seconds" location]
  else []

/-- The interval of a timer. -/
def timerInterval (scope : Scope) (path : Path) (value : Number) : List Finding :=
  let location := scope.place (path ++ [.name "interval"])
  if value.le 0 then
    [.critical .invalidTimeInterval
      (scope.message s!"time interval ({value.text}) must be positive")
      "Use an interval in (0, 10] seconds" location]
  else if Limits.longestInterval.lt value then
    [.warning .invalidTimeInterval (scope.message s!"time interval ({value.text}) exceeds 10")
      "Use an interval in (0, 10] seconds" location]
  else []

/-- One coordinate of the region of a position condition. -/
def regionCoordinate (scope : Scope) (path : Path) (axis : String) (value : Number) :
    List Finding :=
  if outsideUnit value then
    [.critical .invalidCoordinates
      (scope.message s!"position region {axis} ({value.text}) is outside 0.0-1.0")
      "Keep the region inside the stage"
      (scope.place (path ++ [.name "region", .name axis]))]
  else []

/-- Findings about a number that may be missing. -/
def ifPresent (value : Option Number) (check : Number → List Finding) : List Finding :=
  match value with
  | some n => check n
  | none => []

def regionFields (scope : Scope) (path : Path) : Option Region → List Finding
  | some r => regionCoordinate scope path "x" r.x ++ regionCoordinate scope path "y" r.y
  | none => []

/-- What the other types of conditions ask of their fields. -/
def plainConditionFields (scope : Scope) (path : Path) : Condition → List Finding
  | .counter name _ value =>
    (if name.textOr "" == "" then
      [.critical .missingCounterName (scope.message "counter condition has no counterName")
        "Name the counter this condition compares" (scope.place (path ++ [.name "counter_name"]))]
    else []) ++
    (if value.isNone then
      [.critical .missingCounterValue
        (scope.message "counter condition has no value to compare against")
        "Add the threshold value" (scope.about (path ++ [.name "value"]) name.get?)]
    else [])
  | .time _ seconds interval =>
    ifPresent seconds (timerSeconds scope path) ++ ifPresent interval (timerInterval scope path)
  | .flag flag _ =>
    if flag.textOr "" == "" then
      [.critical .missingFlagId (scope.message "flag condition has no flagId")
        "Name the flag this condition reads" (scope.place (path ++ [.name "flag_id"]))]
    else []
  | .random chance _ =>
    let place := path ++ [.name "probability"]
    match chance with
    | none =>
      [.critical .missingProbability (scope.message "random condition has no probability")
        "Add a probability between 0.0 and 1.0" (scope.place place)]
    | some value => probability scope place value
  | .collision target _ _ => needsTarget scope path "collision" target
  | .objectState target _ => needsTarget scope path "objectState" target
  | _ => []

/-- What the type of a condition asks of its fields. -/
def checkConditionFields (scope : Scope) (path : Path) : Condition → Except Fault (List Finding)
  | .position target _ region =>
    return regionFields scope path (← look Field.x region) ++ needsTarget scope path "position" target
  | c => return plainConditionFields scope path c

/-- The findings about the enumerated fields of a condition. -/
def conditionEnumFindings (scope : Scope) (path : Path) (c : Condition) : List Finding :=
  (conditionEnums c).flatMap fun (field, value) =>
    enumerated scope s!"condition.{c.kind.shown}.{field}" (.value value)
      (path ++ [.name (Text.snakeCase field)]) s!"{c.kind.shown} {field}"

/-- A condition of an unsupported type. -/
def unsupportedCondition (scope : Scope) (path : Path) (c : Condition) : Finding :=
  let type := c.kind.shown
  .critical .invalidConditionType (scope.message s!"condition type \"{type}\" is not supported")
    s!"Use one of the supported condition types ({scope.vocabulary.conditionListing})"
    (scope.about (path ++ [.name "type"]) (some type))

/-- The types of conditions that ask something of their fields. -/
def checkedConditions : List String :=
  ["counter", "time", "flag", "random", "position", "collision", "objectState"]

def checkCondition (scope : Scope) (path : Path) (c : Condition) : Except Fault (List Finding) :=
  if scope.vocabulary.hasCondition c.kind then
    return conditionEnumFindings scope path c ++
      (← tabled checkedConditions c.kind (checkConditionFields scope path c))
  else return [unsupportedCondition scope path c]

end TouchGame.Check

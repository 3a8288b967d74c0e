import TouchGame.Check.Conflicts

/-!
# Clashes

Rules that get in each other's way: two on one trigger of which one wins and the other loses, and a
rule that hides for good what other rules wait for.

* `outcomeClashes` : every pair of rules on one trigger with opposite outcomes, the earlier first.
* `hidingClashes` : every hiding of an object that nothing shows again and other rules depend on.
-/

namespace TouchGame.Play

/-- Rules in each other's way. -/
inductive Clash where
  | opposite (first second : String)
  | hidden (object hider : String) (dependents : List String)
  deriving DecidableEq, Repr

namespace Clash

/-- The word for the kind of a clash. -/
def word : Clash → String
  | .opposite .. => "simultaneous_termination"
  | .hidden .. => "hidden_target"

def description : Clash → String
  | .opposite .. => "Success and failure can trigger with the same condition"
  | .hidden object .. => s!"Object \"{object}\" is hidden for good but other rules depend on it"

/-- The rules of a clash. -/
def rules : Clash → List String
  | .opposite first second => [first, second]
  | .hidden _ hider dependents => hider :: dependents

def isError : Clash → Bool
  | .opposite .. => true
  | .hidden .. => false

end Clash

/-- The clash of an earlier and a later rule. -/
def outcomeClash? (first second : Rule) : Option Clash :=
  if !first.signature.isEmpty && second.signature == first.signature &&
      Check.oppositeOutcomes first second then
    some (.opposite first.id second.id)
  else none

def outcomeClashes : List Rule → List Clash
  | [] => []
  | first :: rest => rest.filterMap (outcomeClash? first) ++ outcomeClashes rest

/-- Whether a condition names an object as its target, resolved or not. -/
def targets (object : String) : Condition → Bool
  | .unknown _ extras => match Extra.held? extras Field.target.name with
    | some (.str name) => name == object
    | _ => false
  | c => c.target? == some (.value object)

/-- Whether a rule is about an object, as its own or as the target of a condition. -/
def concerns (object : String) (r : Rule) : Bool :=
  r.targetObject == .value object || r.conditions.any (targets object)

/-- The objects that some action, picks included, shows. -/
def everShown (g : Game) : List String :=
  g.rules.flatMap fun r => r.allActions.filterMap fun
    | .reveal target .. => (r.resolve target).text?
    | _ => none

/-- The clashes of a rule that hides objects, with the rules in front of it and behind it. -/
def hidingClash (shown : List String) (before : List Rule) (r : Rule) (behind : List Rule) :
    List Clash :=
  let gone := (r.hiddenObjects.filterMap (·.text?)).filter fun object => !shown.contains object
  gone.filterMap fun object =>
    match ((before ++ behind).filter (concerns object)).map (·.id) with
    | [] => none
    | dependents => some (.hidden object r.id dependents)

/-- The hiding clashes of the rules behind some others. -/
def hidingClashesFrom (shown : List String) (before : List Rule) : List Rule → List Clash
  | [] => []
  | r :: behind =>
    hidingClash shown before r behind ++ hidingClashesFrom shown (before ++ [r]) behind

def hidingClashes (g : Game) : List Clash :=
  hidingClashesFrom (everShown g) [] g.rules

/-- All clashes of a rule-set. -/
def clashes (g : Game) : List Clash :=
  outcomeClashes g.rules ++ hidingClashes g

end TouchGame.Play

import TouchGame.Script.Game

/-!
# Depth of documents

A document holds free-form data to a bounded depth, and each choice around an action takes some of
its levels.

* `Action.depthFault?`, `Condition.depthFault?` : what stands against writing an action or a condition.
* `Rule.document`, `Game.document` : the document of a rule or a rule-set, unless it is too deep.
-/

namespace TouchGame

def documentLevels : Nat := 255

/-- The first of some values that lies deeper than a number of levels. -/
def firstBeyond? (levels : Nat) (values : List Json) : Option Json :=
  values.findSome? (·.beyond? levels)

namespace Action

def levelsTaken (choices : Nat) : Nat :=
  if choices == 0 then 1 else 2 * choices + 2

/-- The levels that a close look at an action with some choices around it takes. -/
def levelsWatched (choices : Nat) : Nat :=
  3 * choices + 1

/-- What stands against writing the free-form values of an action with some choices around it. Where
they go too deep, the close look tells which fault it is. -/
def valuesFault? (choices : Nat) (values : List Json) : Option Fault :=
  if (firstBeyond? (documentLevels - levelsTaken choices) values).isNone then none
  else if documentLevels < levelsWatched choices then some .tooDeep
  else if (firstBeyond? (documentLevels - levelsWatched choices) values).any (·.isContainer) then
    some .repeatedValue
  else some .tooDeep

mutual

/-- What stands against writing an action with some choices around it. -/
def depthFault? (choices : Nat) : Action → Option Fault
  | .choice options _ _ => optionsDepthFault? (choices + 1) options
  | .setPhysics _ (.value physics) => valuesFault? choices (physics.map (·.2))
  | .unknown type extras => valuesFault? choices (Extra.writtenValues type extras)
  | _ => none

/-- What stands against writing the options of a choice, with some choices around them. -/
def optionsDepthFault? (choices : Nat) : List (ChoiceOption Action) → Option Fault
  | [] => none
  | ⟨action, _, _⟩ :: rest => (depthFault? choices action).or (optionsDepthFault? choices rest)

end

end Action

/-- What stands against writing a condition. -/
def Condition.depthFault? : Condition → Option Fault
  | .unknown type extras =>
    if (firstBeyond? documentLevels (Extra.writtenValues type extras)).isSome then some .tooDeep
    else none
  | _ => none

namespace Rule

/-- What stands against writing a rule; its trigger comes before its actions. -/
def depthFault? (r : Rule) : Option Fault :=
  (r.conditions.findSome? (·.depthFault?)).or (r.actions.findSome? (·.depthFault? 0))

/-- The document of a rule, unless it is too deep. -/
def document (r : Rule) : Except Fault Json :=
  match r.depthFault? with
  | some fault => .error fault
  | none => .ok r.toJson

end Rule

/-- The document of a rule-set, unless one of its rules is too deep. -/
def Game.document (g : Game) : Except Fault Json :=
  match g.rules.findSome? (·.depthFault?) with
  | some fault => .error fault
  | none => .ok g.toJson

end TouchGame

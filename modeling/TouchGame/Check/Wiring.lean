import TouchGame.Check.Look

/-!
# Wiring of rules

Which rules write and read the counters, flags and objects of a rule-set, and which rules the player
can trigger. One pass over the rules looks into every trigger and every movement; what comes after it
reads what it has seen.

* `Rule.seen`, `Game.seen` : what that pass sees, in one rule and in all.
* `Game.counterWriters`, `flagWriters`, `visibilityWriters`, `Seen.readers` : the rules at the ends of
  each wire, in order.
* `Rule.gatedByPlayer` : a rule has player input among its own conditions.
* `Game.ledByPlayer` : it has, or a counter or flag it reads is written by a rule that has.
-/

namespace TouchGame

namespace Action

def counterName? : Action → Option Name
  | .counter name .. => name.name?
  | _ => none

def flagName? : Action → Option Name
  | .setFlag flag _ | .toggleFlag flag => flag.name?
  | _ => none

def changesVisibility : Action → Bool
  | .hide .. | .reveal .. => true
  | _ => false

/-- Whether an action is seen to let an object follow the player's drag. -/
def seenFollowing : Action → Except Fault Bool
  | .followDrag .. => return true
  | .move _ movement => return (← Check.look Field.type movement).any (·.type == .value "followDrag")
  | _ => return false

end Action

namespace Condition

def counterName? : Condition → Option Name
  | .counter name .. => name.name?
  | _ => none

def flagName? : Condition → Option Name
  | .flag name _ => name.name?
  | _ => none

end Condition

namespace Rule

def shownOrHidden? (r : Rule) (a : Action) : Option Name :=
  if a.changesVisibility then (r.objectOf a).name? else none

end Rule

/-! ## One pass over the rules -/

/-- What is seen in a rule: its conditions, and the objects that follow the player's drag. -/
structure Seen where
  rule : Rule
  conditions : List Condition
  dragged : List Name

namespace Rule

/-- The object that an action is seen to let follow the player's drag. -/
def seenDragged? (r : Rule) (a : Action) : Except Fault (Option Name) :=
  return if ← a.seenFollowing then (r.objectOf a).name? else none

def seen (r : Rule) : Except Fault Seen := do
  let conditions ← r.seenConditions
  let dragged ← r.allActions.mapM r.seenDragged?
  return ⟨r, conditions, dragged.reduceOption⟩

end Rule

def Game.seen (g : Game) : Except Fault (List Seen) :=
  g.rules.mapM (·.seen)

namespace Seen

def readers (seen : List Seen) (counter : Name) : List Rule :=
  (seen.filter (·.conditions.any (·.counterName? == some counter))).map (·.rule)

def allDragged (seen : List Seen) : List Name :=
  seen.flatMap (·.dragged)

end Seen

namespace Game

/-- The rules with an action, picks included, that changes a counter. -/
def counterWriters (g : Game) (counter : Name) : List Rule :=
  g.rules.filter fun r => r.allActions.any (·.counterName? == some counter)

/-- The rules with an action, picks included, that sets or toggles a flag. -/
def flagWriters (g : Game) (flag : Name) : List Rule :=
  g.rules.filter fun r => r.allActions.any (·.flagName? == some flag)

/-- The rules with an action, picks included, that shows or hides an object. -/
def visibilityWriters (g : Game) (object : Name) : List Rule :=
  g.rules.filter fun r => r.allActions.any (r.shownOrHidden? · == some object)

end Game

/-! ## The player -/

/-- What counts as player input: any touch, collision or position, or, strictly, a touch and those
collisions and positions that involve an object that follows the player's drag. -/
inductive Input where
  | any
  | dragOnly (dragged : List Name)
  deriving DecidableEq, Repr

def Input.involves (target : Slot String) : Input → Bool
  | .any => true
  | .dragOnly dragged => target.name?.any dragged.contains

namespace Rule

/-- Whether a condition of a rule is player input. -/
def isInput (r : Rule) (input : Input) : Condition → Bool
  | .touch .. => true
  | .collision target .. | .position target .. =>
    input.involves (r.resolve target) || input.involves r.targetObject
  | _ => false

/-- Whether a rule has player input among its conditions. -/
def gatedByPlayer (r : Rule) (input : Input) : Bool :=
  r.conditions.any (r.isInput input)

end Rule

namespace Game

/-- Whether a condition reads a counter or flag that a player-gated rule writes. -/
def fedByPlayer (g : Game) (input : Input) (c : Condition) : Bool :=
  let writers := match c.counterName?, c.flagName? with
    | some counter, _ => g.counterWriters counter
    | none, some flag => g.flagWriters flag
    | none, none => []
  writers.any (·.gatedByPlayer input)

/-- Whether player input gates a rule, directly or through one counter or flag. -/
def ledByPlayer (g : Game) (input : Input) (r : Rule) : Bool :=
  r.gatedByPlayer input || r.conditions.any (g.fedByPlayer input)

/-- The rules that may fire an action of a type, picks included. -/
def rulesThatMay (g : Game) (type : String) : List Rule :=
  g.rules.filter (·.mayFire type)

end Game

end TouchGame

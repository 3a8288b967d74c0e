import TouchGame.Play.Walk
import TouchGame.Script.Comparison

/-!
# Levers

What a player can work on to make a rule fire, and which rules move a counter the way it should go.

* `Rule.handle?` : the object to work on, `stage` where anywhere will do.
* `Rule.gesture` : whether it is tapped or dragged.
* `mover?` : the first rule that changes a counter in a direction, with the change.
* `setter?` : the first rule that sets a counter to an accepted value, with the value.
-/

namespace TouchGame

namespace Condition

/-- An object that a touch, collision or position condition is about. -/
def handle? : Condition → Option String
  | .touch target _ | .collision target .. | .position target .. =>
    target.text?.filter fun object => !specialTargets.contains object
  | _ => none

def touchesStage : Condition → Bool
  | .touch target _ => target == .value "stage" || target == .value "stageArea"
  | _ => false

end Condition

namespace Rule

/-- The object to work on so that a rule fires: its own, or the first of its conditions, or the
stage. -/
def handle? (r : Rule) : Option String :=
  match r.targetObject.text? with
  | some object => some object
  | none => match r.conditions.findSome? (·.handle?) with
    | some object => some object
    | none => if r.conditions.any (·.touchesStage) then some "stage" else none

/-- A rule that waits for a collision or position, and for no touch, takes a drag. -/
def gesture (r : Rule) : Play.Gesture :=
  let words := r.conditionWords
  if !words.contains "touch" && (words.contains "collision" || words.contains "position") then .drag
  else .tap

end Rule

namespace Play

/-- What an action adds to a counter, if it changes it at all. -/
def changeOf? (counter : String) : Action → Option Number
  | .counter (.value name) operation value =>
    if name == counter then counterChange? operation value else none
  | _ => none

/-- What an action sets a counter to. -/
def settingOf? (counter : String) : Action → Option Number
  | .counter (.value name) (.value "set") value => if name == counter then some (value.getD 0) else none
  | _ => none

/-- What the changes of a rule's own actions add to a counter. -/
def netChange (r : Rule) (counter : String) : Except Fault Number :=
  (r.actions.filterMap (changeOf? counter)).foldlM
    (fun total change => arithmetic (total.add change)) 0

def goes (up : Bool) (change : Number) : Bool :=
  if up then Number.lt 0 change else change.lt 0

/-- The first rule of a list that moves a counter up or down, with its change. -/
def firstMover? (counter : String) (up : Bool) : List Rule → Except Fault (Option (Rule × Number))
  | [] => .ok none
  | r :: rest => do
    let change ← netChange r counter
    if goes up change then return some (r, change) else firstMover? counter up rest

/-- The first rule that moves a counter up or down, with its change. -/
def mover? (g : Game) (counter : String) (up : Bool) : Except Fault (Option (Rule × Number)) :=
  firstMover? counter up g.rules

/-- The first rule that sets a counter to an accepted value, with the value. -/
def setter? (g : Game) (counter : String) (accepts : Number → Bool) : Option (Rule × Number) :=
  g.rules.findSome? fun r =>
    ((r.actions.filterMap (settingOf? counter)).find? accepts).map fun value => (r, value)

end Play

end TouchGame

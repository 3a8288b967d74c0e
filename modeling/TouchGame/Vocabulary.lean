import TouchGame.Script.Signature

/-!
# Vocabularies

A vocabulary says which condition and action types a deployment of the game editor supports, and for
some fields which values. A field without an entry takes any value.

* `Vocabulary.editor`, `Vocabulary.verified` : the two built-in profiles.
* `Vocabulary.decode` : a vocabulary read from a document.
-/

namespace TouchGame

/-- What a deployment supports. -/
structure Vocabulary where
  version : String
  conditionTypes : List String
  actionTypes : List String
  enumerations : List (String × List String)

namespace Vocabulary

def hasCondition (v : Vocabulary) : Json → Bool
  | .str type => v.conditionTypes.contains type
  | _ => false

def hasAction (v : Vocabulary) : Json → Bool
  | .str type => v.actionTypes.contains type
  | _ => false

def allowed? (v : Vocabulary) (field : String) : Option (List String) :=
  v.enumerations.lookup field

def listing (texts : List String) : String :=
  Text.joined ", " (sortedDistinct texts)

def conditionListing (v : Vocabulary) : String :=
  listing v.conditionTypes

def actionListing (v : Vocabulary) : String :=
  listing v.actionTypes

/-! ## Reading -/

def decodeSet : Json → Decoded (List String)
  | .arr items => Decode.itemsFrom Decode.text 0 items
  | _ => .fail .notSet

/-- The values of fields from here on. -/
def decodeEnumerations : List (String × Json) → Decoded (List (String × List String))
  | [] => .ok []
  | (name, value) :: rest =>
    (fun values more => (name, values) :: more) <$> (decodeSet value).within (.name name)
      <*> decodeEnumerations rest

/-- A vocabulary from a document. -/
def decode : Json → Decoded Vocabulary :=
  Decode.record "Vocabulary" fun fields =>
    let enumerations : Json → Decoded (List (String × List String)) := fun
      | .obj fields => decodeEnumerations fields
      | _ => .fail .notObject
    mk <$> Decode.defaulted fields (.word "version") "unversioned" Decode.text
      <*> Decode.required fields (.word "condition_types") decodeSet
      <*> Decode.required fields (.word "action_types") decodeSet
      <*> Decode.defaulted fields (.word "enumerations") [] enumerations

/-! ## Profiles -/

/-- The fields whose values both profiles fix. -/
def sharedEnumerations : List (String × List String) := [
  ("trigger.operator", ["AND", "OR"]),
  ("condition.touch.touchType", ["down", "up", "hold", "drag", "swipe", "flick"]),
  ("condition.time.timeType", ["exact", "range", "interval"]),
  ("condition.counter.comparison",
    ["equals", "greaterOrEqual", "greater", "less", "lessOrEqual"]),
  ("condition.collision.collisionType", ["enter", "stay", "exit"]),
  ("condition.collision.checkMode", ["hitbox", "pixel"]),
  ("condition.flag.flagState", ["ON", "OFF", "OFF_TO_ON", "ON_TO_OFF"]),
  ("condition.gameState.state", ["playing", "success", "failure", "paused"]),
  ("condition.position.area", ["inside", "outside", "crossing"]),
  ("condition.animation.condition",
    ["playing", "stopped", "frame", "frameRange", "loop", "start", "end"]),
  ("condition.objectState.state", ["visible", "hidden"]),
  ("action.move.movement.type",
    ["straight", "teleport", "wander", "stop", "swap", "approach", "orbit", "bounce", "followDrag"]),
  ("action.move.movement.direction", ["up", "down", "left", "right"]),
  ("action.counter.operation", ["increment", "decrement", "set", "add", "subtract"]),
  ("action.effect.effect.type", ["flash", "shake", "scale", "rotate", "particles"]),
  ("action.randomAction.selectionMode", ["uniform", "probability", "weighted"])]

/-- All that the editor runtime implements. -/
def editor : Vocabulary where
  version := "editor-2"
  conditionTypes := [
    "touch", "time", "counter", "collision", "flag", "gameState", "position", "animation", "random",
    "objectState"]
  actionTypes := [
    "success", "failure", "hide", "show", "move", "counter", "addScore", "effect", "setFlag",
    "toggleFlag", "playSound", "stopSound", "playBGM", "stopBGM", "switchAnimation",
    "playAnimation", "setAnimationSpeed", "setAnimationFrame", "followDrag", "applyForce",
    "applyImpulse", "setGravity", "setPhysics", "randomAction", "showMessage", "pause", "restart"]
  enumerations := sharedEnumerations

/-- What has been verified end to end on a device. -/
def verified : Vocabulary where
  version := "verified-1"
  conditionTypes := ["touch", "time", "counter", "collision", "flag", "gameState"]
  actionTypes := [
    "success", "failure", "hide", "show", "move", "counter", "addScore", "effect", "setFlag",
    "toggleFlag"]
  enumerations := sharedEnumerations

end Vocabulary

end TouchGame

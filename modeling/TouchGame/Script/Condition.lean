import TouchGame.Script.Extra
import TouchGame.Script.Shape

/-!
# Conditions

What can trigger a rule. A condition whose type is none of the ten known ones keeps its type and all
its other fields as they were written.

* `Condition.kind` : the type of a condition as it is written.
* `Condition.part` : the fields of a condition.
* `Condition.decode` : a condition read from a document.
-/

namespace TouchGame

/-- A condition of a trigger. -/
inductive Condition where
  | touch (target touchType : Slot String)
  | time (timeType : Slot String) (seconds interval : Option Number)
  | counter (counter comparison : Slot String) (value : Option Number)
  | collision (target collisionType checkMode : Slot String)
  | flag (flag flagState : Slot String)
  | gameState (state : Slot String)
  | position (target area : Slot String) (region : Slot Region)
  | animation (target condition : Slot String) (frame : Option Number)
      (frameRange : Slot (List Number)) (loopCount : Option Number)
  | random (probability : Option Number) (seed : Slot String)
  | objectState (target state : Slot String)
  | unknown (type : Json) (extras : List Extra)

namespace Condition

/-- The word for the type of a known condition. -/
def word? : Condition → Option String
  | .touch .. => some "touch"
  | .time .. => some "time"
  | .counter .. => some "counter"
  | .collision .. => some "collision"
  | .flag .. => some "flag"
  | .gameState .. => some "gameState"
  | .position .. => some "position"
  | .animation .. => some "animation"
  | .random .. => some "random"
  | .objectState .. => some "objectState"
  | .unknown .. => none

/-- The type of a condition as it is written. -/
def kind : Condition → Json
  | .unknown type _ => type
  | c => .str (c.word?.getD "")

def kindText? (c : Condition) : Option String :=
  c.kind.text?

/-- The target of a condition whose target is an object. -/
def target? : Condition → Option (Slot String)
  | .touch target _ | .collision target .. | .position target .. | .animation target ..
  | .objectState target _ => some target
  | _ => none

/-! ## Fields -/

/-- The fields of a known condition behind its type; an unknown one has none that are known. -/
def parts : Condition → List (Key × Part Condition)
  | .touch t k => [
    (Field.target, .text? t (.touch · k)),
    (Field.touchType, .text? k (.touch t ·))]
  | .time k s i => [
    (Field.timeType, .text? k (.time · s i)),
    (Field.seconds, .number? s (.time k · i)),
    (Field.interval, .number? i (.time k s ·))]
  | .counter n c v => [
    (Field.counterName, .text? n (.counter · c v)),
    (Field.comparison, .text? c (.counter n · v)),
    (Field.value, .number? v (.counter n c ·))]
  | .collision t k m => [
    (Field.target, .text? t (.collision · k m)),
    (Field.collisionType, .text? k (.collision t · m)),
    (Field.checkMode, .text? m (.collision t k ·))]
  | .flag f s => [
    (Field.flagId, .text? f (.flag · s)),
    (Field.flagState, .text? s (.flag f ·))]
  | .gameState s => [
    (Field.state, .text? s .gameState)]
  | .position t a r => [
    (Field.target, .text? t (.position · a r)),
    (Field.area, .text? a (.position t · r)),
    (Field.region, .inner Region.part r (.position t a ·))]
  | .animation t c f r l => [
    (Field.target, .text? t (.animation · c f r l)),
    (Field.condition, .text? c (.animation t · f r l)),
    (Field.frameNumber, .number? f (.animation t c · r l)),
    (Field.frameRange, .numbers? r (.animation t c f · l)),
    (Field.loopCount, .number? l (.animation t c f r ·))]
  | .random p s => [
    (Field.probability, .number? p (.random · s)),
    (Field.seed, .text? s (.random p ·))]
  | .objectState t s => [
    (Field.target, .text? t (.objectState · s)),
    (Field.state, .text? s (.objectState t ·))]
  | .unknown .. => []

def noun (c : Condition) : String :=
  (c.word?.getD "unknown").capitalize ++ "Condition"

/-- A condition as a record: its type, then its other fields. -/
def part : Condition → Part Condition
  | .unknown type extras => .ofExtras type extras .unknown
  | c => .record c.noun ((Field.type, .leaf c.kind .other) :: c.parts)

/-! ## Reading -/

open Decode in
/-- The condition of a type, from its other fields; an unknown type gives none. -/
def decodeKnown? (fields : Json.Fields) : String → Option (Decoded Condition)
  | "touch" => some <| .touch <$> optional fields Field.target text
      <*> optional fields Field.touchType text
  | "time" => some <| .time <$> optional fields Field.timeType text
      <*> optionalNumber fields Field.seconds real <*> optionalNumber fields Field.interval real
  | "counter" => some <| .counter <$> optional fields Field.counterName text
      <*> optional fields Field.comparison text <*> optionalNumber fields Field.value quantity
  | "collision" => some <| .collision <$> optional fields Field.target text
      <*> optional fields Field.collisionType text <*> optional fields Field.checkMode text
  | "flag" => some <| .flag <$> optional fields Field.flagId text
      <*> optional fields Field.flagState text
  | "gameState" => some <| .gameState <$> optional fields Field.state text
  | "position" => some <| .position <$> optional fields Field.target text
      <*> optional fields Field.area text <*> optional fields Field.region Region.decode
  | "animation" => some <| .animation <$> optional fields Field.target text
      <*> optional fields Field.condition text <*> optionalNumber fields Field.frameNumber integer
      <*> optional fields Field.frameRange (list integer)
      <*> optionalNumber fields Field.loopCount integer
  | "random" => some <| .random <$> optionalNumber fields Field.probability real
      <*> optional fields Field.seed text
  | "objectState" => some <| .objectState <$> optional fields Field.target text
      <*> optional fields Field.state text
  | _ => none

/-- A condition; complaints name the type behind the index. -/
def decode : Json → Decoded Condition
  | .obj fields =>
    let type := (Json.get? fields Field.type.wire).getD .null
    match type.text?.bind fun word => (decodeKnown? fields word).map fun d => (word, d) with
    | some (word, known) => known.within (.name word)
    | none => ((Extra.decode fields).map (.unknown type)).within (.name "unknown")
  | _ => (Decoded.fail (.notRecord "UnknownCondition")).within (.name "unknown")

end Condition

end TouchGame

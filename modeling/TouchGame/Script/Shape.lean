import TouchGame.Script.Decoded

/-!
# Shapes

The small records inside conditions, actions and the layout: points, regions, movements, effects.
Each comes with its parts and its reader.
-/

namespace TouchGame

/-- A pair of coordinates: a place on the stage, a scale or a push. -/
structure Point where
  x : Number
  y : Number
  deriving DecidableEq, Repr

namespace Point

/-- The coordinates that paths reach; the noun is what faults call the pair. -/
def part (noun : String) (p : Point) : Part Point :=
  .record noun [
    (Field.x, .number p.x fun n => { p with x := n }),
    (Field.y, .number p.y fun n => { p with y := n })]

/-- A pair of coordinates; the noun is what complaints call it. -/
def decode (noun : String) : Json → Decoded Point :=
  Decode.record noun fun fields =>
    mk <$> Decode.required fields Field.x Decode.real <*> Decode.required fields Field.y Decode.real

end Point

/-- A rectangle on the stage. -/
structure Region where
  x : Number
  y : Number
  width : Option Number
  height : Option Number
  deriving DecidableEq, Repr

namespace Region

/-- The corner and the measures that paths reach. -/
def part (r : Region) : Part Region :=
  .record "Region" [
    (Field.x, .number r.x fun n => { r with x := n }),
    (Field.y, .number r.y fun n => { r with y := n }),
    (Field.width, .number? r.width fun n => { r with width := n }),
    (Field.height, .number? r.height fun n => { r with height := n })]

/-- A rectangle; its measures may be absent. -/
def decode : Json → Decoded Region :=
  Decode.record "Region" fun fields =>
    mk <$> Decode.required fields Field.x Decode.real <*> Decode.required fields Field.y Decode.real
      <*> Decode.optionalNumber fields Field.width Decode.real
      <*> Decode.optionalNumber fields Field.height Decode.real

end Region

/-- Where a movement leads: a point of the stage, or an object. -/
inductive Goal where
  | point (p : Point)
  | object (id : String)
  deriving DecidableEq, Repr

namespace Goal

/-- A point is entered by paths, an object id ends them. -/
def part : Goal → Part Goal
  | .point p => (p.part "Point").map .point
  | .object id => .text id

/-- Objects are points and texts are object ids; of anything else both readings complain. -/
def decode : Json → Decoded Goal
  | .str id => .ok (.object id)
  | value => match Point.decode "Point" value with
    | .ok p => .ok (.point p)
    | .bad complaints =>
      .bad (complaints.map (·.within (.name "Point")) ++ [⟨[.name "str"], .notText⟩])

end Goal

/-- How an object moves. -/
structure Movement where
  type : Slot String
  target : Slot Goal
  speed : Option Number
  duration : Option Number
  direction : Slot String
  deriving DecidableEq, Repr

namespace Movement

/-- The fields that paths reach; those of a goal lie below `target`. -/
def part (m : Movement) : Part Movement :=
  .record "Movement" [
    (Field.type, .text? m.type fun s => { m with type := s }),
    (Field.target, .inner Goal.part m.target fun g => { m with target := g }),
    (Field.speed, .number? m.speed fun n => { m with speed := n }),
    (Field.duration, .number? m.duration fun n => { m with duration := n }),
    (Field.direction, .text? m.direction fun s => { m with direction := s })]

/-- A movement; every field may be absent. -/
def decode : Json → Decoded Movement :=
  Decode.record "Movement" fun fields =>
    mk <$> Decode.optional fields Field.type Decode.text
      <*> Decode.optional fields Field.target Goal.decode
      <*> Decode.optionalNumber fields Field.speed Decode.real
      <*> Decode.optionalNumber fields Field.duration Decode.real
      <*> Decode.optional fields Field.direction Decode.text

end Movement

/-- How a visual effect looks. -/
structure Effect where
  type : Slot String
  duration : Option Number
  intensity : Option Number
  scaleAmount : Option Number
  deriving DecidableEq, Repr

namespace Effect

/-- The fields that paths reach. -/
def part (e : Effect) : Part Effect :=
  .record "EffectSpec" [
    (Field.type, .text? e.type fun s => { e with type := s }),
    (Field.duration, .number? e.duration fun n => { e with duration := n }),
    (Field.intensity, .number? e.intensity fun n => { e with intensity := n }),
    (Field.scaleAmount, .number? e.scaleAmount fun n => { e with scaleAmount := n })]

/-- An effect; every field may be absent. -/
def decode : Json → Decoded Effect :=
  Decode.record "EffectSpec" fun fields =>
    mk <$> Decode.optional fields Field.type Decode.text
      <*> Decode.optionalNumber fields Field.duration Decode.real
      <*> Decode.optionalNumber fields Field.intensity Decode.real
      <*> Decode.optionalNumber fields Field.scaleAmount Decode.real

end Effect

end TouchGame

import TouchGame.Script.Rule

/-!
# Rule-sets

A rule-set is the script of a game, that is layout, counters and rules, with its asset plan, which
says what objects and sounds exist.

* `Game.decode` : a rule-set read from a document.
* `Game.toJson` : the document of a rule-set.
* `Game.part` : the places that paths into a rule-set reach.
-/

namespace TouchGame

/-- An object placed on the stage. -/
structure Placement where
  object : String
  position : Point
  scale : Slot Point
  deriving DecidableEq, Repr

namespace Placement

/-- The fields that paths reach; coordinates lie below `position` and `scale`. -/
def part (p : Placement) : Part Placement :=
  .record "LayoutObject" [
    (Field.objectId, .text p.object),
    (Field.position, (p.position.part "Point").map fun q => { p with position := q }),
    (Field.scale, .inner (Point.part "Point") p.scale fun s => { p with scale := s })]

/-- A placement; only its scale may be absent. -/
def decode : Json → Decoded Placement :=
  Decode.record "LayoutObject" fun fields =>
    mk <$> Decode.required fields Field.objectId Decode.text
      <*> Decode.required fields Field.position (Point.decode "Point")
      <*> Decode.optional fields Field.scale (Point.decode "Point")

end Placement

/-- A counter and the value it starts at. -/
structure Counter where
  id : String
  name : Slot String
  initialValue : Number
  deriving DecidableEq, Repr

namespace Counter

/-- The fields that paths reach. -/
def part (c : Counter) : Part Counter :=
  .record "CounterDefinition" [
    (Field.id, .text c.id),
    (Field.name, .text? c.name fun s => { c with name := s }),
    (Field.initialValue, .number c.initialValue fun n => { c with initialValue := n })]

/-- A counter; it starts at zero unless told otherwise. -/
def decode : Json → Decoded Counter :=
  Decode.record "CounterDefinition" fun fields =>
    mk <$> Decode.required fields Field.id Decode.text
      <*> Decode.optional fields Field.name Decode.text
      <*> Decode.defaulted fields Field.initialValue 0 Decode.quantity

end Counter

/-- An object of the asset plan. -/
structure ObjectPlan where
  id : String
  name : Slot String
  purpose : Slot String
  visualDescription : Slot String
  initialPosition : Slot Point
  size : Slot String
  deriving DecidableEq, Repr

namespace ObjectPlan

/-- The fields that paths reach; coordinates lie below `initial_position`. -/
def part (o : ObjectPlan) : Part ObjectPlan :=
  .record "ObjectPlan" [
    (Field.id, .text o.id),
    (Field.name, .text? o.name fun s => { o with name := s }),
    (Field.purpose, .text? o.purpose fun s => { o with purpose := s }),
    (Field.visualDescription, .text? o.visualDescription fun s => { o with visualDescription := s }),
    (Field.initialPosition, .inner (Point.part "Point") o.initialPosition fun p =>
      { o with initialPosition := p }),
    (Field.size, .text? o.size fun s => { o with size := s })]

/-- An object of the plan; only its id is required. -/
def decode : Json → Decoded ObjectPlan :=
  Decode.record "ObjectPlan" fun fields =>
    mk <$> Decode.required fields Field.id Decode.text
      <*> Decode.optional fields Field.name Decode.text
      <*> Decode.optional fields Field.purpose Decode.text
      <*> Decode.optional fields Field.visualDescription Decode.text
      <*> Decode.optional fields Field.initialPosition (Point.decode "Point")
      <*> Decode.optional fields Field.size Decode.text

end ObjectPlan

/-- A sound of the asset plan. -/
structure SoundPlan where
  id : String
  trigger : Slot String
  type : Slot String
  deriving DecidableEq, Repr

namespace SoundPlan

/-- The fields that paths reach. -/
def part (s : SoundPlan) : Part SoundPlan :=
  .record "SoundPlan" [
    (Field.id, .text s.id),
    (Field.trigger, .text? s.trigger fun t => { s with trigger := t }),
    (Field.type, .text? s.type fun t => { s with type := t })]

/-- A sound of the plan; only its id is required. -/
def decode : Json → Decoded SoundPlan :=
  Decode.record "SoundPlan" fun fields =>
    mk <$> Decode.required fields Field.id Decode.text
      <*> Decode.optional fields Field.trigger Decode.text
      <*> Decode.optional fields Field.type Decode.text

end SoundPlan

/-- The background music of the asset plan. -/
structure MusicPlan where
  id : String
  description : Slot String
  mood : Slot String
  deriving DecidableEq, Repr

namespace MusicPlan

/-- The fields that paths reach. -/
def part (m : MusicPlan) : Part MusicPlan :=
  .record "BgmPlan" [
    (Field.id, .text m.id),
    (Field.description, .text? m.description fun s => { m with description := s }),
    (Field.mood, .text? m.mood fun s => { m with mood := s })]

/-- The music of the plan; only its id is required. -/
def decode : Json → Decoded MusicPlan :=
  Decode.record "BgmPlan" fun fields =>
    mk <$> Decode.required fields Field.id Decode.text
      <*> Decode.optional fields Field.description Decode.text
      <*> Decode.optional fields Field.mood Decode.text

end MusicPlan

/-- A rule-set. -/
structure Game where
  layout : List Placement
  counters : List Counter
  rules : List Rule
  objects : List ObjectPlan
  sounds : List SoundPlan
  music : Slot MusicPlan

namespace Game

def layoutPart (g : Game) : Part Game :=
  .items Placement.part g.layout fun ps => { g with layout := ps }

def countersPart (g : Game) : Part Game :=
  .items Counter.part g.counters fun cs => { g with counters := cs }

def rulesPart (g : Game) : Part Game :=
  .items Rule.part g.rules fun rs => { g with rules := rs }

/-- The script: layout, counters and rules. -/
def scriptPart (g : Game) : Part Game :=
  .record "GameScript" [
    (Field.layout, .record "Layout" [(Field.objects, g.layoutPart)]),
    (Field.counters, g.countersPart),
    (Field.rules, g.rulesPart)]

/-- The asset plan: objects, sounds and music. -/
def assetPart (g : Game) : Part Game :=
  .record "AssetPlan" [
    (Field.objects, .items ObjectPlan.part g.objects fun os => { g with objects := os }),
    (Field.sounds, .items SoundPlan.part g.sounds fun ss => { g with sounds := ss }),
    (Field.bgm, .inner MusicPlan.part g.music fun m => { g with music := m })]

/-- A rule-set as paths see it: the script, then the asset plan; shortcuts lead to the lists of the
script. -/
def part (g : Game) : Part Game :=
  (Part.record "RuleSet" [(Field.script, g.scriptPart), (Field.assetPlan, g.assetPart)]).withShortcuts [
    (Field.layoutObjects, g.layoutPart), (Field.counters, g.countersPart), (Field.rules, g.rulesPart)]

/-- The document of a rule-set. -/
def toJson (g : Game) : Json :=
  g.part.tree.toJson

/-- What stands at a path into a rule-set; none if the path leads nowhere. Where a path through a reserved
name leads is left open. -/
def place? (g : Game) (path : Path) : Option (Place Game) :=
  g.part.place? path

/-- Layout, counters and rules. -/
def decodeScript : Json → Decoded (List Placement × List Counter × List Rule) :=
  let layout : Json → Decoded (List Placement) := Decode.record "Layout" fun fields =>
    Decode.required fields Field.objects (Decode.list Placement.decode)
  Decode.record "GameScript" fun fields =>
    (fun ps cs rs => (ps, cs, rs)) <$> Decode.required fields Field.layout layout
      <*> Decode.defaulted fields Field.counters [] (Decode.list Counter.decode)
      <*> Decode.required fields Field.rules (Decode.list Rule.decode)

/-- Objects, sounds and music. -/
def decodeAssets : Json → Decoded (List ObjectPlan × List SoundPlan × Slot MusicPlan) :=
  Decode.record "AssetPlan" fun fields =>
    (fun os ss m => (os, ss, m)) <$> Decode.required fields Field.objects (Decode.list ObjectPlan.decode)
      <*> Decode.defaulted fields Field.sounds [] (Decode.list SoundPlan.decode)
      <*> Decode.optional fields Field.bgm MusicPlan.decode

/-- A rule-set from a document. -/
def decode : Json → Decoded Game :=
  Decode.record "RuleSet" fun fields =>
    (fun (ps, cs, rs) (os, ss, m) => ⟨ps, cs, rs, os, ss, m⟩) <$>
      Decode.required fields Field.script decodeScript
      <*> Decode.required fields Field.assetPlan decodeAssets

def objectIds (g : Game) : List String :=
  g.objects.map (·.id)

/-- The ids of the counters that are declared. -/
def counterIds (g : Game) : List String :=
  g.counters.map (·.id)

def soundIds (g : Game) : List String :=
  g.sounds.map (·.id)

def rule? (g : Game) (id : String) : Option Rule :=
  g.rules.find? (·.id == id)

/-- The first counter with an id. -/
def counter? (g : Game) (id : String) : Option Counter :=
  g.counters.find? (·.id == id)

/-- The rules with an action of a type among their own. -/
def rulesFiring (g : Game) (type : String) : List Rule :=
  g.rules.filter (·.fires type)

end Game

end TouchGame

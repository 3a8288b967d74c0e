import TouchGame.Check.Limits
import TouchGame.Check.Look

/-!
# Checks of layout and identity

Rule ids occur once, objects are placed once and on the stage, and scales are positive and moderate.
-/

namespace TouchGame.Check

/-- The texts that occur more than once, each with its count, in the order of first occurrence. -/
def repeated (texts : List String) : List (String × Nat) :=
  (texts.eraseDups.map fun s => (s, texts.count s)).filter (1 < ·.2)

def outsideUnit (n : Number) : Bool :=
  !n.within Limits.zero Limits.one

def axes (p : Point) : List (String × Number) :=
  [("x", p.x), ("y", p.y)]

/-- The findings about a point that may be missing, given the check of a coordinate. -/
def pointFindings (check : String → Number → List Finding) : Option Point → List Finding
  | some p => (axes p).flatMap fun (axis, value) => check axis value
  | none => []

def ruleIds (g : Game) : List Finding :=
  (repeated (g.rules.map (·.id))).map fun (id, count) =>
    .critical .duplicateRuleId s!"Rule id \"{id}\" is used by {count} rules"
      "Give every rule a unique id" ⟨[], some id, some id⟩

/-- One coordinate of a placed object. -/
def placedCoordinate (path : Path) (object axis : String) (value : Number) : List Finding :=
  if outsideUnit value then
    [.critical .invalidCoordinates
      s!"Layout object \"{object}\": {axis} coordinate ({value.text}) is outside 0.0-1.0"
      s!"Set the {axis} coordinate within 0.0-1.0"
      ⟨path ++ [.name "position", .name axis], none, some object⟩]
  else []

/-- One component of a placed object's scale. -/
def placedScale (path : Path) (object axis : String) (value : Number) : List Finding :=
  let location : Location := ⟨path ++ [.name "scale", .name axis], none, some object⟩
  if value.le 0 then
    [.critical .invalidScale
      s!"Layout object \"{object}\": {axis} scale ({value.text}) must be positive"
      "Use a positive scale (1.0 is the natural size)" location]
  else if Limits.largestScale.lt value then
    [.warning .extremeScale
      s!"Layout object \"{object}\": {axis} scale ({value.text}) is very large"
      s!"Keep scale at or below {Limits.largestScale.text}" location]
  else []

/-- A placed object: its position, then its scale. -/
def checkPlacement (index : Nat) (p : Placement) : Except Fault (List Finding) := do
  let path : Path := [.name "script", .name "layout", .name "objects", .index index]
  let scale ← look Field.x p.scale
  return (axes p.position).flatMap (fun (axis, value) => placedCoordinate path p.object axis value) ++
    pointFindings (placedScale path p.object) scale

/-- The objects that are placed more than once. -/
def placedTwice (g : Game) : List Finding :=
  (repeated (g.layout.map (·.object))).map fun (id, count) =>
    .warning .duplicateLayoutObject s!"Object \"{id}\" appears {count} times in the layout"
      "Place each object once" ⟨[], none, some id⟩

/-- Every placed object, then the objects that are placed more than once. -/
def checkLayout (g : Game) : Except Fault (List Finding) :=
  return (← indexedM checkPlacement 0 g.layout) ++ placedTwice g

/-- One coordinate of an object's initial position, which is advisory. -/
def initialCoordinate (index : Nat) (object axis : String) (value : Number) : List Finding :=
  if outsideUnit value then
    [.warning .invalidCoordinates
      s!"Asset \"{object}\": initial {axis} coordinate ({value.text}) is outside 0.0-1.0"
      "Set the initial position within 0.0-1.0"
      ⟨[.name "asset_plan", .name "objects", .index index, .name "initial_position", .name axis],
        none, some object⟩]
  else []

def checkInitialPositions (g : Game) : Except Fault (List Finding) :=
  indexedM (fun index (o : ObjectPlan) =>
    return pointFindings (initialCoordinate index o.id) (← look Field.x o.initialPosition)) 0 g.objects

end TouchGame.Check

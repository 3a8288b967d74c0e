import TouchGame.Check.Limits
import TouchGame.Fault
import TouchGame.Finding
import TouchGame.Script.Game

/-!
# Fixes of single values

A finding whose code has a correction is mended at the place its path leads to: a number there is
brought within its limits, or a number that is missing is filled in. Nothing happens where the path
leads nowhere or to something else, where the rule there is not the one the finding names, or where
the number is right already. A place that takes no other number is a fault once it needs one.

* `correction?`, `filling?` : what the codes do.
* `autoFix` : a finding applied to a rule-set, with a record of the change.
-/

namespace TouchGame.Repair

/-- The record of a change to a rule-set. -/
structure Amendment where
  code : Code
  description : String
  target : String
  before : Json
  after : Json

/-- The correction that a code makes to a number, with its description. -/
def correction? : Code → Option (String × (Number → Number))
  | .invalidCoordinates => some ("Clamped coordinate", (·.clamp Limits.zero Limits.one))
  | .invalidSpeed | .unusualSpeed =>
    some ("Clamped movement speed", fun n => n.abs.clamp Limits.slowest Limits.fastest)
  | .invalidTimeSeconds => some ("Clamped time seconds", (·.clamp Limits.zero Limits.longestTime))
  | .invalidTimeInterval =>
    some ("Clamped time interval", (·.clamp Limits.leastPositive Limits.longestInterval))
  | .invalidVolume => some ("Clamped volume", (·.clamp Limits.zero Limits.one))
  | .invalidProbability => some ("Clamped probability", (·.clamp Limits.zero Limits.one))
  | .negativePoints => some ("Made points positive", (·.abs))
  | .invalidEffectDuration | .longEffectDuration =>
    some ("Clamped effect duration", (·.clamp Limits.leastPositive Limits.longestEffect))
  | .invalidScaleAmount | .largeScaleAmount =>
    some ("Clamped scale amount", (·.clamp Limits.leastPositive Limits.largestAmount))
  | .invalidDuration =>
    some ("Raised duration to a positive value", fun n => Limits.leastPositive.max n)
  | .invalidScale =>
    some ("Reset scale to natural size", fun n => if n.le 0 then Limits.one else n)
  | .extremeScale => some ("Clamped scale", fun n => Limits.largestScale.min n)
  | _ => none

/-- The number that a code fills in where one is missing, with its description. -/
def filling? : Code → Option (String × Number)
  | .missingPoints => some ("Added default points", 100)
  | .missingProbability => some ("Added default probability", .thousandths 500)
  | _ => none

/-- A change of one value: what is said about it, the values, and the rule-set behind it. -/
structure Change where
  description : String
  before : Json
  after : Number
  game : Game

def fill? (description : String) (value : Number) : Place Game → Except Fault (Option Change)
  | .vacant put => .ok (some ⟨description, .null, value, put value⟩)
  | .fixed none refusal => .error refusal
  | _ => .ok none

/-- The correction of a place. -/
def correct? (description : String) (corrected : Number → Number) :
    Place Game → Except Fault (Option Change)
  | .number current put =>
    let value := corrected current
    .ok (if value.eq current then none else some ⟨description, .num current, value, put value⟩)
  | .fixed (some current) refusal =>
    if (corrected current).eq current then .ok none else .error refusal
  | _ => .ok none

/-- The change that a code makes at a place. -/
def change? (code : Code) (place : Place Game) : Except Fault (Option Change) :=
  match filling? code, correction? code with
  | some (description, value), _ => fill? description value place
  | none, some (description, corrected) => correct? description corrected place
  | none, none => .ok none

/-- Whether a path into the rules still leads to the rule that its finding names; an index that is
too far below zero is a fault. -/
def leadsToRule (g : Game) (l : Location) : Except Fault Bool :=
  match l.rule, l.path with
  | some id, .name "script" :: .name "rules" :: .index i :: _ =>
    if (g.rules.length : Int) ≤ i then .ok false
    else match position? g.rules.length i with
      | some k => .ok ((g.rules[k]?).any (·.id == id))
      | none => .error .indexOutOfRange
  | some _, .name "script" :: .name "rules" :: .name _ :: _ => .ok false
  | _, _ => .ok true

/-- The rule-set behind the fix of a finding and the record of it, if anything changes. -/
def autoFix (g : Game) (f : Finding) : Except Fault (Option (Game × Amendment)) :=
  let path := f.location.path
  if path.isEmpty then .ok none
  else do
    match ← leadsToRule g f.location, g.place? path, f.label.code? with
    | true, some place, some code =>
      return (← change? code place).map fun change =>
        (change.game, ⟨code, change.description, path.text, change.before, .num change.after⟩)
    | _, _, _ => return none

end TouchGame.Repair

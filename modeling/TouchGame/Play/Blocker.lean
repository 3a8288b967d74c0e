import TouchGame.Fault

/-!
# Blockers

Why a success rule cannot be brought to fire.
-/

namespace TouchGame.Play

/-- One reason why a success rule cannot be brought to fire. -/
inductive Blocker where
  | noSuccessRule
  | unwrittenCounter (counter : String)
  | startsTooHigh (counter : String) (initial threshold : Number)
  | invisibleTarget (object : String)
  | unsupportedComparison (counter comparison : String)
  | noMover (counter : String) (up : Bool)
  | noHandle (counter : String)
  | counterTargetHidden (object counter : String) (threshold : Number)
  | losesOnTheWay (rule : String)
  | flagTargetHidden (object flag : String)
  | noFlagWriter (flag : String)
  | touchTargetHidden (object : String)
  | missesThreshold (counter : String) (value : Number) (comparison : String) (threshold : Number)
  deriving DecidableEq, Repr

/-- The wording of a blocker. -/
def Blocker.message : Blocker → String
  | .noSuccessRule => "No success rule defined"
  | .unwrittenCounter counter => s!"Counter \"{counter}\" has no modifying rule"
  | .startsTooHigh counter initial threshold =>
    s!"Counter \"{counter}\" starts too high ({initial.text} > {threshold.text})"
  | .invisibleTarget object => s!"Touch target \"{object}\" is not visible"
  | .unsupportedComparison counter comparison =>
    s!"Counter \"{counter}\" uses unsupported comparison \"{comparison}\""
  | .noMover counter up =>
    let direction := if up then "increase" else "decrease"
    s!"No rule to {direction} counter \"{counter}\""
  | .noHandle counter => s!"Cannot determine tap target for changing counter \"{counter}\""
  | .counterTargetHidden object counter threshold =>
    s!"Target \"{object}\" becomes hidden before counter \"{counter}\" reaches {threshold.text}"
  | .losesOnTheWay rule => s!"Rule \"{rule}\" ends the game in failure on the way to success"
  | .flagTargetHidden object flag =>
    s!"Target \"{object}\" is hidden before flag \"{flag}\" can be set"
  | .noFlagWriter flag => s!"No player-triggered rule sets flag \"{flag}\""
  | .touchTargetHidden object => s!"Touch target \"{object}\" is hidden before success"
  | .missesThreshold counter value comparison threshold =>
    s!"Counter \"{counter}\" ends at {value.text}, which does not satisfy {comparison} {threshold.text}"

/-- Why an attempt to bring a rule to fire stops: it is blocked, or arithmetic or a type fails. -/
inductive Setback where
  | blocked (reasons : List Blocker)
  | fault (cause : Fault)
  deriving DecidableEq, Repr

/-- The reasons of one rule as a text. -/
def reasonsText (reasons : List Blocker) : String :=
  Text.joined "; " (reasons.map (·.message))

abbrev Attempt (α : Type) := Except Setback α

/-- An attempt that is blocked for one reason. -/
def blocked (reason : Blocker) : Attempt α :=
  .error (.blocked [reason])

def attempt (result : Except Fault α) : Attempt α :=
  result.mapError .fault

end TouchGame.Play

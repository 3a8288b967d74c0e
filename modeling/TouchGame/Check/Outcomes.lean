import TouchGame.Check.Wiring
import TouchGame.Script.Comparison
import TouchGame.Script.Signature

/-!
# Checks of outcomes

A game can be won, is not over at its start, and is neither won nor lost without the player.
-/

namespace TouchGame.Check

/-- Some rule can end the game in success, and some in failure. -/
def outcomesExist (g : Game) : List Finding :=
  (if (g.rulesThatMay "success").isEmpty then
    [.critical .noSuccess "No rule fires a success action; the game cannot be won"
      "Add a rule whose actions include success" .none]
  else []) ++
  (if (g.rulesThatMay "failure").isEmpty then
    [.warning .noFailure
      "No rule fires a failure action; only the timeout can end the game in a loss"
      "Add a failure rule if the game should be losable before timeout" .none]
  else [])

/-- An outcome that can be there at the start of a game. -/
structure InstantOutcome where
  type : String
  code : Code
  verb : String
  /-- The comparisons that are looked at. -/
  covers : Comparison → Bool
  fix : String

/-- Winning at the start: every comparison counts. -/
def instantWin : InstantOutcome where
  type := "success"
  code := .instantWin
  verb := "won"
  covers _ := true
  fix := "Lower the counter's initial value below the target or change the success condition"

/-- Losing at the start: failure thresholds are lower bounds, so only those comparisons count. -/
def instantLose : InstantOutcome where
  type := "failure"
  code := .instantLose
  verb := "lost"
  covers c := c == .equals || c == .greaterOrEqual || c == .greater
  fix := "Keep the counter's initial value away from the failure threshold"

/-- A counter condition that holds at the start: its name, the initial value and the condition. -/
def holdsAtStart? (g : Game) (covers : Comparison → Bool) :
    Condition → Option (String × Number × String × Number)
  | .counter name comparison (some value) => do
    let id ← name.text?
    let counter ← g.counter? id
    let word := comparison.textOr Comparison.defaultName
    let compare ← Comparison.ofName? word
    if covers compare && compare.holds counter.initialValue value then
      some (id, counter.initialValue, word, value)
    else none
  | _ => none

/-- The first condition of a list that holds at the start, with its position. -/
def firstTrue? (g : Game) (covers : Comparison → Bool) (index : Nat) :
    List Condition → Option (Nat × String × Number × String × Number)
  | [] => none
  | c :: rest =>
    match holdsAtStart? g covers c with
    | some hit => some (index, hit)
    | none => firstTrue? g covers (index + 1) rest

/-- A rule at an index that may bring an outcome at the start. -/
def instantOutcome (g : Game) (index : Nat) (r : Rule) (outcome : InstantOutcome) : List Finding :=
  let path : Path := [.name "script", .name "rules", .index index]
  if !r.mayFire outcome.type then []
  else if r.conditions.isEmpty then
    [.critical outcome.code
      s!"Rule \"{r.id}\": {outcome.type} rule has no conditions, so the game is {outcome.verb} immediately"
      s!"Gate the {outcome.type} action behind a condition"
      ⟨path ++ [.name "triggers"], some r.id, none⟩]
  else match firstTrue? g outcome.covers 0 r.conditions with
    | some (position, id, initial, word, value) =>
      [.critical outcome.code
        (s!"Rule \"{r.id}\": counter \"{id}\" starts at {initial.text}, " ++
          s!"so \"{word} {value.text}\" holds at game start")
        outcome.fix
        ⟨path ++ [.name "triggers", .name "conditions", .index position], some r.id, some id⟩]
    | none => []

def instantOutcomes (g : Game) : List Finding :=
  indexed (fun index r => instantOutcome g index r instantWin ++ instantOutcome g index r instantLose)
    0 g.rules

def automaticConditions : List String := ["time", "gameState", "counter", "flag"]

/-- Success without any player input. -/
def autoSuccess (r : Rule) : Finding :=
  let words := Text.joined ", " (sortedDistinct r.conditionWords)
  .critical .autoSuccess
    s!"Rule \"{r.id}\": success fires without any player input ({words} only)"
    ("Make success depend on a touch, collision or position condition, " ++
      "or add a player-triggered failure") (.ofRule r.id)

/-- Success that nothing but the game itself can bring. -/
def checkAutomaticSuccess (g : Game) (r : Rule) : Except Fault (List Finding) := do
  let automatic ← r.conditions.allM fun c =>
    return (← inTable automaticConditions c.kind) && !g.fedByPlayer .any c
  return if automatic then [autoSuccess r] else []

def isTimer : Condition → Bool
  | .time .. => true
  | _ => false

/-- Failure by timers alone where no success depends on the player. -/
def automaticFailure (r : Rule) : List Finding :=
  if r.conditions.all isTimer then
    [.critical .autoFailure
      s!"Rule \"{r.id}\": failure fires on a timer and no success rule depends on player input"
      "Give the player a way to win before the timer expires" (.ofRule r.id)]
  else []

def gated (rules : List Rule) : List Rule :=
  rules.filter (!·.conditions.isEmpty)

/-- Failure without any player input, unless some success depends on the player. -/
def automaticFailures (g : Game) : List Finding :=
  if (g.rulesThatMay "success").any (g.ledByPlayer .any) then []
  else (gated (g.rulesThatMay "failure")).flatMap automaticFailure

/-- Outcomes that need no player; success does not count where the player can at least lose. -/
def checkAutomaticOutcomes (g : Game) : Except Fault (List Finding) := do
  let successes ← if (g.rulesThatMay "failure").any (·.gatedByPlayer .any) then pure []
    else eachM (checkAutomaticSuccess g) (gated (g.rulesThatMay "success"))
  return successes ++ automaticFailures g

/-- Some success depends on a touch, on an object that follows the player's drag, or on what those
change. -/
def checkPlayerAction (g : Game) (dragged : List Name) : List Finding :=
  let winning := g.rulesThatMay "success"
  if winning.any (g.ledByPlayer (.dragOnly dragged)) then []
  else match winning with
    | [] => []
    | first :: _ =>
      [.warning .noPlayerAction
        ("No player action leads to success: no success rule is triggered by a touch, " ++
          "by a dragged object, or by a counter/flag that player input changes")
        "Add a touch-driven rule on the path to success" (.ofRule first.id)]

end TouchGame.Check

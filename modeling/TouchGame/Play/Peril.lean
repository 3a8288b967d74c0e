import TouchGame.Play.Walk

/-!
# Perils

How a game can be lost: by running out of time, always, and by the rules that end it in failure.

* `perilWalks` : the first few walks into a loss.
* `risks` : every way to lose as a text.
-/

namespace TouchGame.Play

def mostPerilWalks : Nat := 3

/-- Doing nothing until the time is over. -/
def timeout (settings : Settings) : Walk :=
  ⟨[.wait settings.timeLimit "Timeout"], 0, settings.timeLimit⟩

/-- The walk into a loss by a condition of a failure rule, if it is a touch. -/
def perilWalk? (settings : Settings) (r : Rule) : Condition → Option Walk
  | .touch target _ =>
    let object := (r.resolve target).textOr "unknown"
    some ⟨[.touch .tap object "Failure triggered"], 1, settings.secondsPerTap⟩
  | _ => none

/-- A risk by a condition of a failure rule. -/
def risk? (r : Rule) : Condition → Option String
  | .touch target _ =>
    let object := (r.resolve target).textOr "unknown"
    some s!"Tapping wrong object: {object}"
  | .counter name _ value =>
    let threshold := (value.map (·.text)).getD "None"
    some s!"Counter {name.shown} reaching {threshold}"
  | .collision target .. => some s!"Collision with {(r.resolve target).shown}"
  | _ => none

def perilWalks (settings : Settings) (g : Game) : List Walk :=
  let touches := (g.rulesFiring "failure").flatMap fun r => r.conditions.filterMap (perilWalk? settings r)
  (timeout settings :: touches).take mostPerilWalks

def risks (g : Game) : List String :=
  "Game timeout" :: (g.rulesFiring "failure").flatMap fun r => r.conditions.filterMap (risk? r)

end TouchGame.Play

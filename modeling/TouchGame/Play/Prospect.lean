import TouchGame.Check.Wiring
import TouchGame.Play.Witness

/-!
# Prospects

Whether a game can be won: the walk for the first success rule that can be reached, or all that
stands in the way of every one of them.

* `lacking` : what a condition of a success rule lacks, whatever walk is tried.
* `prospect` : the search over the success rules in order.
-/

namespace TouchGame.Play

/-- Whether a game can be won. -/
inductive Prospect where
  | reachable (walk : Walk)
  | blocked (reasons : List String)
  deriving DecidableEq, Repr

namespace Prospect

/-- Whether a game can be won. -/
def isReachable : Prospect → Bool
  | .reachable _ => true
  | .blocked _ => false

/-- The taps of the walk, `-1` without one. -/
def tapCount : Prospect → Int
  | .reachable walk => walk.taps
  | .blocked _ => -1

/-- The seconds of the walk, `-1` without one. -/
def estimatedSeconds : Prospect → Number
  | .reachable walk => walk.time
  | .blocked _ => (Number.thousandths 1000).neg

end Prospect

/-- A counter above the threshold of a condition that wants it below, with no rule to lower it. -/
def startsTooHigh (g : Game) (counter : String) (comparison : Slot String) (value : Option Number) :
    Except Fault (List Blocker) :=
  let initial := (State.initial g).counter counter
  let threshold := thresholdOf value
  let wantsBelow? : Option Comparison := match comparison with
    | .value "less" => some .less
    | .value "lessOrEqual" => some .lessOrEqual
    | _ => none
  match wantsBelow? with
  | some compare =>
    if threshold.lt initial then do
      let mover ← mover? g counter false
      let helped := mover.isSome || (setter? g counter (compare.holds · threshold)).isSome
      return if helped then [] else [.startsTooHigh counter initial threshold]
    else .ok []
  | none => .ok []

/-- What a condition of a success rule lacks. -/
def lacking (g : Game) (w : Rule) : Condition → Except Fault (List Blocker)
  | .counter name comparison value => match name.text? with
    | some counter => do
      let unwritten := if (g.counterWriters counter).isEmpty then [.unwrittenCounter counter] else []
      return unwritten ++ (← startsTooHigh g counter comparison value)
    | none => .ok []
  | .touch target _ => match (w.resolve target).text? with
    | some object =>
      if specialTargets.contains object || (State.initial g).visible.contains object then .ok []
      else .ok [.invisibleTarget object]
    | none => .ok []
  | _ => .ok []

def allLacking (g : Game) (winning : List Rule) : Except Fault (List Blocker) :=
  return (← winning.mapM fun w => return (← w.conditions.mapM (lacking g w)).flatten).flatten

/-- The walk for the first rule of a list that can be reached, or the reasons of each. -/
def firstReached (settings : Settings) (g : Game) (reasons : List String) :
    List Rule → Except Fault (Except (List String) Walk)
  | [] => .ok (.error reasons)
  | w :: rest => match reach settings g w with
    | .ok walk => .ok (.ok walk)
    | .error (.blocked more) => firstReached settings g (reasons ++ [reasonsText more]) rest
    | .error (.fault cause) => .error cause

/-- Whether a game can be won, and how, or what stands in the way. -/
def prospect (settings : Settings) (g : Game) : Except Fault Prospect :=
  match g.rulesFiring "success" with
  | [] => .ok (.blocked [Blocker.noSuccessRule.message])
  | winning => do
    match ← firstReached settings g [] winning with
    | .ok walk => return .reachable walk
    | .error reasons =>
      let lacks ← allLacking g winning
      return .blocked (lacks.map (·.message) ++ reasons).eraseDups

end TouchGame.Play

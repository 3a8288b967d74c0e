import TouchGame.Play.Blocker
import TouchGame.Play.Lever

/-!
# Witnesses

A witness shows that a success rule can be brought to fire: a walk from the initial state along
which the conditions of the rule are met one after the other. A counter is driven to its threshold by
the first rule that moves it the right way, or else by one that sets it to an accepted value; a flag
by the first rule that puts it into the wanted position. Counters are looked at again at the end.

* `gap` : how far a counter is from its threshold.
* `bringCounter`, `bringFlag` : the moves for one condition.
* `walkFor` : the walk for a list of conditions.
* `reach` : the walk for a rule; of conditions joined by `OR` the first that can be met is enough.
-/

namespace TouchGame.Play

/-- The threshold of a counter condition; none means zero. -/
def thresholdOf (value : Option Number) : Number :=
  value.getD 0

/-- Whether a counter condition holds in a state; an unsupported comparison never does. -/
def counterHolds (s : State) (counter : String) (comparison : Slot String) (value : Option Number) :
    Bool :=
  match Comparison.ofName? (comparison.textOr Comparison.defaultName) with
  | some compare => compare.holds (s.counter counter) (thresholdOf value)
  | none => false

/-- How far a value is from where a comparison holds: positive below it, negative above it. -/
def gap (compare : Comparison) (threshold current : Number) : Except Fault Number :=
  arithmetic <| match compare with
  | .equals => threshold.sub current
  | .greaterOrEqual => return Number.max 0 (← threshold.sub current)
  | .greater => return Number.max 0 (← (← threshold.add 1).sub current)
  | .lessOrEqual => return Number.min 0 (← threshold.sub current)
  | .less => return Number.min 0 (← (← threshold.sub 1).sub current)

/-! ## Counters -/

/-- A rule to fire, how often, and what comes of each time. -/
structure Plan where
  rule : Rule
  times : Nat
  result : String

/-- How to close a gap of a counter. -/
def planCounter (g : Game) (counter : String) (compare : Comparison) (threshold gap : Number) :
    Attempt Plan := do
  let up := Number.lt 0 gap
  match ← attempt (mover? g counter up) with
  | some (rule, change) =>
    let times ← attempt (arithmetic (do Number.ceil (← gap.abs.quotient change.abs)))
    let shown ← attempt (arithmetic change.generalSigned)
    return ⟨rule, times.toNat, s!"Counter {counter} {shown}"⟩
  | none => match setter? g counter (compare.holds · threshold) with
    | some (rule, value) =>
      let shown ← attempt (arithmetic value.general)
      return ⟨rule, 1, s!"Counter {counter} set to {shown}"⟩
    | none => blocked (.noMover counter up)

/-- A rule fired a number of times by working on an object; it ends early where the game is won. -/
def fireTimes (plan : Plan) (object counter : String) (threshold : Number) :
    Nat → Trail → Attempt Trail
  | 0, t => .ok t
  | times + 1, t =>
    if t.state.isHidden object then blocked (.counterTargetHidden object counter threshold)
    else do
      let next ← attempt (t.state.fire plan.rule)
      let walked := { t.touch plan.rule.gesture object plan.result with state := next }
      match next.outcome with
      | .failure => blocked (.losesOnTheWay plan.rule.id)
      | .success => return walked
      | .open => fireTimes plan object counter threshold times walked

/-- The moves after which a counter condition can hold. -/
def bringCounter (g : Game) (t : Trail) (counter : String) (comparison : Slot String)
    (value : Option Number) : Attempt Trail := do
  let name := comparison.textOr Comparison.defaultName
  let threshold := thresholdOf value
  match Comparison.ofName? name with
  | none => blocked (.unsupportedComparison counter name)
  | some compare =>
    let distance ← attempt (gap compare threshold (t.state.counter counter))
    if distance.eq 0 then return t
    else
      let plan ← planCounter g counter compare threshold distance
      match plan.rule.handle? with
      | none => blocked (.noHandle counter)
      | some object => fireTimes plan object counter threshold plan.times t

/-! ## Flags -/

def wantsOn (flagState : Slot String) : Bool :=
  let word := flagState.textOr "ON"
  word == "ON" || word == "OFF_TO_ON"

/-- The first rule of a list that puts a flag into a position, does not lose, and can be worked on. -/
def firstSwitch (t : Trail) (flag : String) (on : Bool) : List Rule → Attempt Trail
  | [] => blocked (.noFlagWriter flag)
  | r :: rest => do
    let next ← attempt (t.state.fire r)
    if next.flag flag != on || next.outcome == .failure then firstSwitch t flag on rest
    else match r.handle? with
      | none => firstSwitch t flag on rest
      | some object =>
        if t.state.isHidden object then blocked (.flagTargetHidden object flag)
        else
          let position := if on then "ON" else "OFF"
          return { t.touch r.gesture object s!"Flag {flag} {position}" with state := next }

/-- The move after which a flag is in a position, if it is not there already. -/
def bringFlag (g : Game) (t : Trail) (flag : String) (on : Bool) : Attempt Trail :=
  if t.state.flag flag == on then .ok t else firstSwitch t flag on g.rules

/-! ## Rules -/

/-- The seconds that a time condition waits. -/
def waitOf (seconds interval : Option Number) : Number :=
  match seconds.or interval with
  | some n => if n.eq 0 then State.noTime else n
  | none => State.noTime

/-- The moves for one condition of a success rule. -/
def meet (g : Game) (w : Rule) (t : Trail) : Condition → Attempt Trail
  | .counter name comparison value => match name.text? with
    | some counter => bringCounter g t counter comparison value
    | none => .ok t
  | .flag name flagState => match name.text? with
    | some flag => bringFlag g t flag (wantsOn flagState)
    | none => .ok t
  | .touch target _ =>
    let resolved := w.resolve target
    match resolved.text?.filter t.state.isHidden with
    | some object => blocked (.touchTargetHidden object)
    | none => .ok (t.touch .tap (resolved.textOr "stage") s!"Rule \"{w.id}\" fires")
  | .time _ seconds interval => .ok (t.wait (waitOf seconds interval) "Time condition met")
  | _ => .ok t

/-- The moves for a list of conditions; it ends early where the game is won. -/
def meetAll (g : Game) (w : Rule) : List Condition → Trail → Attempt Trail
  | [], t => .ok t
  | c :: rest, t => do
    let next ← meet g w t c
    if next.state.outcome == .success then return next else meetAll g w rest next

/-- What is said of a counter condition that does not hold in a state; the counter's value may be too
long to be said. -/
def shortfall (s : State) (counter : String) (comparison : Slot String) (value : Option Number) :
    Setback :=
  match arithmetic (s.counter counter).written with
  | .ok _ => .blocked [.missesThreshold counter (s.counter counter)
      (comparison.textOr Comparison.defaultName) (thresholdOf value)]
  | .error cause => .fault cause

/-- A counter condition that does not hold in a state. -/
def shortfall? (s : State) : Condition → Option Setback
  | .counter name comparison value => match name.text? with
    | some counter =>
      if counterHolds s counter comparison value then none
      else some (shortfall s counter comparison value)
    | none => none
  | _ => none

/-- The trail along which all conditions of a list are met. -/
def trailFor (g : Game) (w : Rule) (conditions : List Condition) : Attempt Trail := do
  let t ← meetAll g w conditions (.start (.initial g))
  match conditions.findSome? (shortfall? t.state) with
  | some setback => .error setback
  | none => return t

/-- The walk along which all conditions of a list are met. -/
def walkFor (settings : Settings) (g : Game) (w : Rule) (conditions : List Condition) :
    Attempt Walk := do
  let t ← trailFor g w conditions
  attempt (t.walk settings.secondsPerTap)

/-- The walk for the first condition of a list that can be met, or the reasons against each. -/
def firstWalk (settings : Settings) (g : Game) (w : Rule) (reasons : List Blocker) :
    List Condition → Attempt Walk
  | [] => .error (.blocked reasons)
  | c :: rest => match walkFor settings g w [c] with
    | .error (.blocked more) => firstWalk settings g w (reasons ++ more) rest
    | other => other

/-- Whether one condition of a rule is enough. -/
def isChoice (w : Rule) : Bool :=
  w.operator == "OR" && 2 ≤ w.conditions.length

/-- The walk along which a success rule comes to fire. -/
def reach (settings : Settings) (g : Game) (w : Rule) : Attempt Walk :=
  if isChoice w then firstWalk settings g w [] w.conditions
  else walkFor settings g w w.conditions

end TouchGame.Play

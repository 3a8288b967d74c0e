import TouchGame.Fault
import TouchGame.Play.State

/-!
# Firing rules

A rule that fires runs its own actions in order. Only those on objects, counters, flags and outcomes
change a state; what a choice picks is not known, so choices change nothing.

* `counterChange?` : by how much a counter action moves its counter.
* `State.after` : the state behind one action.
* `State.fire` : the state behind a rule.
-/

namespace TouchGame.Play

/-- The signed change of a counter by an operation, by one if no value is given; none for an
operation that is no change. -/
def counterChange? (operation : Slot String) (value : Option Number) : Option Number :=
  match operation with
  | .value "increment" | .value "add" => some (value.getD 1)
  | .value "decrement" | .value "subtract" => some (value.getD 1).neg
  | _ => none

/-- The value of a flag action: on unless it says otherwise. -/
def flagValue : Slot Bool → Bool
  | .empty => true
  | .value b => b
  | .number n => !n.eq 0

namespace State

/-- A counter behind an operation on it. -/
def operate (s : State) (id : String) (operation : Slot String) (value : Option Number) :
    Except Fault State :=
  if operation == .value "set" then .ok (s.setCounter id (value.getD 0))
  else match counterChange? operation value with
    | some change => return s.setCounter id (← arithmetic ((s.counter id).add change))
    | none => .ok s

/-- The state behind an action of a rule; an action whose type is a list or an object is a fault. -/
def after (r : Rule) (s : State) : Action → Except Fault State
  | .hide target .. => .ok <| match (r.resolve target).text? with
    | some object => s.hide object
    | none => s
  | .reveal target .. => .ok <| match (r.resolve target).text? with
    | some object => s.reveal object
    | none => s
  | .counter name operation value => match name.text? with
    | some id => s.operate id operation value
    | none => .ok s
  | .setFlag flag value => .ok <| match flag.text? with
    | some id => s.setFlag id (flagValue value)
    | none => s
  | .toggleFlag flag => .ok <| match flag.text? with
    | some id => s.setFlag id (!s.flag id)
    | none => s
  | .success .. => .ok (s.finish .success)
  | .failure .. => .ok (s.finish .failure)
  | .unknown type _ => match type.typeFault? with
    | some fault => .error fault
    | none => .ok s
  | _ => .ok s

/-- The state behind all actions of a rule. -/
def fire (s : State) (r : Rule) : Except Fault State :=
  r.actions.foldlM (after r) s

end State

end TouchGame.Play

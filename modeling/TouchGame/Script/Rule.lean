import TouchGame.Script.Condition
import TouchGame.Script.Action

/-!
# Rules

A rule fires its actions when its trigger holds.

* `Rule.resolve` : the object that a target means inside a rule.
* `Rule.allActions` : the actions of a rule, each choice followed by what it may pick.
* `Rule.fires`, `Rule.mayFire` : whether an action of a type is among the rule's own, or among all.
-/

namespace TouchGame

/-- When a rule fires: conditions joined by an operator. -/
structure Trigger where
  operator : String
  conditions : List Condition

namespace Trigger

/-- The operator and the conditions that paths reach. -/
def part (t : Trigger) : Part Trigger :=
  .record "TriggerClause" [
    (Field.operator, .text t.operator),
    (Field.conditions, .items Condition.part t.conditions fun cs => { t with conditions := cs })]

/-- A trigger; without an operator all of its conditions must hold. -/
def decode : Json → Decoded Trigger :=
  Decode.record "TriggerClause" fun fields =>
    mk <$> Decode.defaulted fields Field.operator "AND" Decode.text
      <*> Decode.defaulted fields Field.conditions [] (Decode.list Condition.decode)

end Trigger

/-- A trigger and the actions it fires; targets fall back on the rule's own object. -/
structure Rule where
  id : String
  name : Slot String
  targetObject : Slot String
  trigger : Slot Trigger
  actions : List Action

namespace Rule

/-- The fields of a rule. -/
def parts (r : Rule) : List (Key × Part Rule) := [
  (Field.id, .text r.id),
  (Field.name, .text? r.name fun s => { r with name := s }),
  (Field.targetObjectId, .text? r.targetObject fun s => { r with targetObject := s }),
  (Field.triggers, .inner Trigger.part r.trigger fun t => { r with trigger := t }),
  (Field.actions, .items Action.part r.actions fun as => { r with actions := as })]

/-- The conditions without the trigger around them. -/
def shortcuts (r : Rule) : List (Key × Part Rule) :=
  match r.trigger with
  | .value t => [(Field.conditions, .items Condition.part t.conditions fun cs =>
      { r with trigger := .value { t with conditions := cs } })]
  | _ => []

/-- The fields that paths reach; conditions lie below `triggers`, or next to it. -/
def part (r : Rule) : Part Rule :=
  (Part.record "Rule" r.parts).withShortcuts r.shortcuts

/-- A rule; only its id is required. -/
def decode : Json → Decoded Rule :=
  Decode.record "Rule" fun fields =>
    mk <$> Decode.required fields Field.id Decode.text
      <*> Decode.optional fields Field.name Decode.text
      <*> Decode.optional fields Field.targetObjectId Decode.text
      <*> Decode.optional fields Field.triggers Trigger.decode
      <*> Decode.defaulted fields Field.actions [] (Decode.list Action.decode)

/-- The document of a rule. -/
def toJson (r : Rule) : Json :=
  r.part.tree.toJson

/-- The conditions of a rule; none without a trigger. -/
def conditions (r : Rule) : List Condition :=
  (r.trigger.get?.map (·.conditions)).getD []

/-- The operator that joins the conditions. -/
def operator (r : Rule) : String :=
  (r.trigger.get?.map (·.operator)).getD "AND"

/-- The object that a target means: none and `self` mean the rule's own. -/
def resolve (r : Rule) : Slot String → Slot String
  | .empty => r.targetObject
  | .value "self" => r.targetObject
  | target => target

theorem resolve_congr {r r' : Rule} (h : r'.targetObject = r.targetObject) : r'.resolve = r.resolve := by
  funext target
  unfold resolve
  rw [h]

def withPicks (a : Action) : List Action :=
  a :: a.picks

/-- The actions of a rule, each choice followed by what it may pick. -/
def allActions (r : Rule) : List Action :=
  r.actions.flatMap withPicks

/-- Whether an action of a type is among the rule's own. -/
def fires (r : Rule) (type : String) : Bool :=
  r.actions.any (·.kindText? == some type)

/-- Whether an action of a type is among the rule's own or what their choices may pick. -/
def mayFire (r : Rule) (type : String) : Bool :=
  r.allActions.any (·.kindText? == some type)

/-- The object that an action works on; none for the types that work on no object. -/
def objectOf (r : Rule) (a : Action) : Slot String :=
  match a.worksOn? with
  | some target => r.resolve target
  | none => .empty

/-- The object that an action works on, if the type of the action can be looked up. -/
def targetOf (r : Rule) (a : Action) : Except Fault (Slot String) :=
  match a.kind.typeFault? with
  | some fault => .error fault
  | none => .ok (r.objectOf a)

def conditionWords (r : Rule) : List String :=
  r.conditions.filterMap (·.kindText?)

end Rule

def specialTargets : List String := ["self", "stage", "stageArea", "other"]

end TouchGame

import TouchGame.Check.Actions

/-!
# Fieldwise check

Everything that can be said about a rule-set field by field, given the vocabulary of a deployment.
No check stops another, so one pass shows every defect.
-/

namespace TouchGame.Check

/-- The operator of a trigger. -/
def triggerOperator (scope : Scope) (path : Path) : Option Trigger → List Finding
  | some trigger =>
    enumerated scope "trigger.operator" (.value trigger.operator)
      (path ++ [.name "triggers", .name "operator"]) "trigger operator"
  | none => []

/-- A rule at an index: its operator, its conditions, its actions. -/
def checkRule (v : Vocabulary) (index : Nat) (r : Rule) : Except Fault (List Finding) := do
  let scope : Scope := ⟨v, r⟩
  let path : Path := [.name "script", .name "rules", .index index]
  let trigger ← look Field.operator r.trigger
  let conditions ← indexedM
    (fun i c => checkCondition scope (path ++ [.name "triggers", .name "conditions", .index i]) c)
    0 (← r.seenConditions)
  let actions ← indexedM (fun i a => checkAction scope (path ++ [.name "actions", .index i]) a)
    0 r.actions
  return triggerOperator scope path trigger ++ conditions ++ actions

/-- The check of a rule-set field by field. -/
def fieldCheck (v : Vocabulary) (g : Game) : Except Fault (List Finding) := do
  let layout ← checkLayout g
  let positions ← checkInitialPositions g
  return ruleIds g ++ layout ++ positions ++ (← indexedM (checkRule v) 0 g.rules)

end TouchGame.Check

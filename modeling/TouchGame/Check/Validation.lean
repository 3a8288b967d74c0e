import TouchGame.Check.Conflicts
import TouchGame.Check.Counters
import TouchGame.Check.Document
import TouchGame.Check.Fieldwise
import TouchGame.Check.Outcomes
import TouchGame.Check.References

/-!
# Validation

One check says what is wrong field by field, the other what is wrong between rules. Each fails where a
lookup or a sort inside it does.

* `Check.rulewise` : references, outcomes, conflicts, counters and reachability.
* `Check.validate` : both checks of a rule-set.
* `Check.validateDocument` : the same of a document; one that does not load gets the findings
  against it.
-/

namespace TouchGame.Check

/-- The findings between the rules of a rule-set. -/
def rulewise (g : Game) : Except Fault (List Finding) := do
  let seen ← g.seen
  let references ← checkReferences g
  let automatic ← checkAutomaticOutcomes g
  let conflicts ← checkConflicts g
  return references ++ outcomesExist g ++ instantOutcomes g ++ automatic ++
    checkPlayerAction g (Seen.allDragged seen) ++ conflicts ++ checkCounterUses g seen ++
    successReachability g

/-- All findings of a rule-set. -/
def validate (v : Vocabulary) (g : Game) : Except Fault (List Finding) :=
  return (← fieldCheck v g) ++ (← rulewise g)

/-- All findings of a document. -/
def validateDocument (v : Vocabulary) (document : Json) : Except Fault (List Finding) :=
  match load document with
  | .ok game => validate v game
  | .error findings => .ok findings

end TouchGame.Check

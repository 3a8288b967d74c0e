import TouchGame.Check.Wiring
import TouchGame.Script.Signature

/-!
# Checks of conflicts

Rules with one signature fire together, so their own actions must not pull in opposite directions;
neither must the actions of a single rule. Picks of choices do not count, since they may not happen.
-/

namespace TouchGame

namespace Rule

/-- The objects that the rule's own actions show. -/
def shownObjects (r : Rule) : List Name :=
  r.actions.filterMap fun
    | .reveal target .. => (r.resolve target).name?
    | _ => none

/-- The objects that the rule's own actions hide. -/
def hiddenObjects (r : Rule) : List Name :=
  r.actions.filterMap fun
    | .hide target .. => (r.resolve target).name?
    | _ => none

/-- The counters that the rule's own actions raise. -/
def raisedCounters (r : Rule) : List Name :=
  r.actions.filterMap fun
    | .counter name (.value "increment") _ | .counter name (.value "add") _ => name.name?
    | _ => none

/-- The counters that the rule's own actions lower. -/
def loweredCounters (r : Rule) : List Name :=
  r.actions.filterMap fun
    | .counter name (.value "decrement") _ | .counter name (.value "subtract") _ => name.name?
    | _ => none

end Rule

namespace Check

def sortedNames (names : List Name) : List Name :=
  names.eraseDups.mergeSort Name.le

/-- Names in order without repetition; a number and a text among them have no order. -/
def sortNames (names : List Name) : Except Fault (List Name) :=
  match names.findSome? (·.number?), names.findSome? (·.text?) with
  | some n, some _ => .error (.unordered n)
  | _, _ => .ok (sortedNames names)

def common (xs ys : List Name) : List Name :=
  xs.filter ys.contains

/-- What one list has in common with another one, or a third with a fourth. -/
def crossing (a b c d : List Name) : List Name :=
  common a b ++ common c d

/-- Both outcomes within one rule. -/
def ownOutcomes (r : Rule) : List Finding :=
  if r.fires "success" && r.fires "failure" then
    [.critical .sameRuleSuccessFailure s!"Rule \"{r.id}\" fires both success and failure"
      "Split success and failure into rules with different triggers" (.ofRule r.id)]
  else []

/-- Objects that one rule both shows and hides. -/
def ownVisibility (r : Rule) (objects : List Name) : List Finding :=
  objects.map fun object =>
    .critical .sameRuleShowHide s!"Rule \"{r.id}\" both shows and hides \"{object.shown}\""
      "Keep only one of show / hide for the object" ⟨[], some r.id, some object.shown⟩

def checkOwnConflicts (r : Rule) : Except Fault (List Finding) :=
  return ownOutcomes r ++ ownVisibility r (← sortNames (common r.shownObjects r.hiddenObjects))

def oppositeOutcomes (first second : Rule) : Bool :=
  (first.fires "success" && second.fires "failure") ||
    (first.fires "failure" && second.fires "success")

/-- Opposite actions of two rules on one trigger, given the objects and the counters that they pull in
opposite directions. -/
def opposition (signature : String) (first second : Rule) (objects counters : List Name) :
    List Finding :=
  let pair := s!"Rules \"{first.id}\" and \"{second.id}\""
  (if oppositeOutcomes first second then
    [.critical .successFailureConflict
      s!"{pair} fire success and failure on the same trigger ({signature})"
      "Use different triggers for the success and failure rules"
      ⟨[], some first.id, some second.id⟩]
  else []) ++
  (objects.map fun object =>
    .critical .showHideConflict
      s!"{pair} show and hide \"{object.shown}\" on the same trigger ({signature})"
      "Merge the rules or give them different triggers" ⟨[], some first.id, some object.shown⟩) ++
  counters.map fun counter =>
    .critical .counterConflict
      s!"{pair} raise and lower counter \"{counter.shown}\" on the same trigger ({signature})"
      "Merge the counter changes into one rule" ⟨[], some first.id, some counter.shown⟩

/-- Opposite actions of two rules on one trigger. -/
def checkOppositions (signature : String) (first second : Rule) : Except Fault (List Finding) := do
  let objects ← sortNames <|
    crossing first.shownObjects second.hiddenObjects first.hiddenObjects second.shownObjects
  let counters ← sortNames <|
    crossing first.raisedCounters second.loweredCounters first.loweredCounters second.raisedCounters
  return opposition signature first second objects counters

def everyPairM (check : α → α → Except Fault (List Finding)) : List α → Except Fault (List Finding)
  | [] => .ok []
  | first :: rest => return (← eachM (check first) rest) ++ (← everyPairM check rest)

/-- The rules of each signature, in the order in which signatures first occur. -/
def grouped (signed : List (String × Rule)) : List (String × List Rule) :=
  let named := signed.filter (!·.1.isEmpty)
  (named.map (·.1)).eraseDups.map fun signature =>
    (signature, (named.filter (·.1 == signature)).map (·.2))

/-- The key of a condition, its region looked into. -/
def seenKey (r : Rule) : Condition → Except Fault String
  | .position target area region =>
    return r.keyOf (.position target area (.ofOption (← look Field.x region)))
  | c => return r.keyOf c

def signed (r : Rule) : Except Fault (String × Rule) :=
  return (r.joinedKeys (← r.conditions.mapM (seenKey r)), r)

/-- Opposite actions of a rule-set: within rules, then between rules of one signature. -/
def checkConflicts (g : Game) : Except Fault (List Finding) := do
  let own ← eachM checkOwnConflicts g.rules
  let groups := grouped (← g.rules.mapM signed)
  let between ← eachM (fun (signature, group) => everyPairM (checkOppositions signature) group) groups
  return own ++ between

end Check

end TouchGame

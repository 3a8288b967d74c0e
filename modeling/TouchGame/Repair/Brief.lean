import TouchGame.Fault
import TouchGame.Finding

/-!
# Briefs

What is told to the author of a rule-set that has to be made anew: the messages of the findings,
grouped by code in the order in which the codes first occur, each group with a hint.
-/

namespace TouchGame.Repair

/-- The first line of a brief. -/
def briefTitle : String := "Fix the following structural problems:"

/-- The hint behind the findings of a code. -/
def hint : Code → String
  | .instantWin =>
    "Lower the counter's initial value below the target or change the success condition"
  | .instantLose => "Set the counter's initial value below the failure threshold"
  | .autoSuccess => "Require a player action such as a touch or collision for success"
  | .autoFailure => "Give the player a touch-driven way to win before the timer fails the game"
  | .noSuccess => "Add a rule whose actions include success"
  | .successFailureConflict => "Separate the success and failure conditions clearly"
  | .showHideConflict => "Do not show and hide the same object on the same trigger"
  | .counterConflict => "Do not raise and lower the same counter on the same trigger"
  | .sameRuleSuccessFailure => "Split success and failure into separate rules"
  | .sameRuleShowHide => "Keep either show or hide for an object within one rule"
  | .unreachableSuccess => "Check the chain of rules that leads to the success condition"
  | .counterNeverModified => "Add a rule that changes the counter"
  | .duplicateRuleId => "Give every rule a unique id"
  | .invalidConditionType => "Use only supported condition types"
  | .invalidActionType => "Use only supported action types"
  | .malformedRuleset => "Follow the rule-set schema exactly"
  | .missingSection => "Include the script and assetPlan sections with their objects and rules"
  | _ => "Rework the rules involved so this problem cannot occur"

/-- Messages by label, the labels in the order in which they came up. -/
abbrev Groups := List (Label × List String)

/-- Groups with one more message: behind those of its label, or in a group of its own at the end. -/
def Groups.add (label : Label) (message : String) : Groups → Groups
  | [] => [(label, [message])]
  | (other, messages) :: rest =>
    if other == label then (other, messages ++ [message]) :: rest
    else (other, messages) :: add label message rest

def grouped (findings : List Finding) : Groups :=
  findings.foldl (fun groups f => Groups.add f.label f.message groups) []

/-- The lines about a code: a blank one, the code, the messages, the hint. -/
def block (code : Code) (messages : List String) : List String :=
  ["", "## " ++ code.name] ++ messages.map ("- " ++ ·) ++ ["-> " ++ hint code]

/-- The lines about a group; a label that is not in the catalogue is a fault. -/
def groupBlock : Label × List String → Except Fault (List String)
  | (.listed code, messages) => .ok (block code messages)
  | (.unlisted name _, _) => .error (.unlistedCode name)

/-- The brief about a list of findings. -/
def brief (findings : List Finding) : Except Fault String := do
  let blocks ← (grouped findings).mapM groupBlock
  return Text.joined "\n" (briefTitle :: blocks.flatten)

end TouchGame.Repair

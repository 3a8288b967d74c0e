import TouchGame.Play.Clash
import TouchGame.Play.Peril
import TouchGame.Play.Prospect

/-!
# Reports

All that a search for a way through a game finds: whether it can be won, how it can be lost, which
rules clash, and a summary.

* `explore` : the report on a rule-set.
* `Report.isPlayable`, `Report.confidence` : the summary.
-/

namespace TouchGame.Play

/-- What is wrong with the search's result. -/
inductive Issue where
  | noSuccessRule
  /-- The seconds that a win needs and the seconds that the game lasts, as texts. -/
  | afterTimeout (needed limit : String)
  deriving DecidableEq, Repr

namespace Issue

/-- The code of an issue. -/
def code : Issue → String
  | .noSuccessRule => "NO_SUCCESS_RULE"
  | .afterTimeout .. => "SUCCESS_AFTER_TIMEOUT"

/-- The wording of an issue. -/
def message : Issue → String
  | .noSuccessRule => "No success rule found"
  | .afterTimeout needed limit =>
    s!"Success path needs ~{needed}s but the game ends after {limit}s"

def isError : Issue → Bool
  | .noSuccessRule => true
  | .afterTimeout .. => false

end Issue

/-- How much a report can be relied on. -/
inductive Confidence where
  | high
  | medium
  | low
  deriving DecidableEq, Repr

/-- The word for a confidence. -/
def Confidence.word : Confidence → String
  | .high => "high"
  | .medium => "medium"
  | .low => "low"

/-- What a search finds. -/
structure Report where
  prospect : Prospect
  perils : List Walk
  risks : List String
  clashes : List Clash
  issues : List Issue
  reasoning : String
  deriving DecidableEq, Repr

/-- The issues of a prospect: no success rule at all, or a walk that takes too long. -/
def issuesOf (settings : Settings) (g : Game) : Prospect → Except Fault (List Issue)
  | .reachable walk =>
    if settings.timeLimit.lt walk.time then do
      let needed ← arithmetic walk.time.fixedOne
      let limit ← arithmetic settings.timeLimit.general
      return [.afterTimeout needed limit]
    else .ok []
  | .blocked _ => .ok (if (g.rulesFiring "success").isEmpty then [.noSuccessRule] else [])

def errorCount (issues : List Issue) : Nat :=
  issues.countP (·.isError)

def simpleTaps : Nat := 20

def simpleIssues : Nat := 2

/-- The sentence about a prospect. -/
def prospectText : Prospect → Except Fault String
  | .reachable walk => do
    let seconds ← arithmetic walk.time.fixedOne
    return s!"Success reachable in {walk.taps} taps (~{seconds}s)"
  | .blocked reasons => .ok ("Success NOT reachable: " ++ Text.joined ", " reasons)

/-- The sentences about a prospect, the clashes and the issues. -/
def reasoningOf (prospect : Prospect) (clashes : List Clash) (issues : List Issue) :
    Except Fault String := do
  let errors := errorCount issues
  let clashText := if clashes.isEmpty then []
    else [s!"{clashes.length} potential conflicts detected"]
  let issueText := if issues.isEmpty then []
    else [s!"Issues: {errors} errors, {issues.length - errors} warnings"]
  return Text.joined ". " ((← prospectText prospect) :: (clashText ++ issueText))

/-- The report on a rule-set. -/
def explore (settings : Settings) (g : Game) : Except Fault Report := do
  let found ← prospect settings g
  let issues ← issuesOf settings g found
  let clashing := clashes g
  return {
    prospect := found
    perils := perilWalks settings g
    risks := risks g
    clashes := clashing
    issues := issues
    reasoning := ← reasoningOf found clashing issues }

namespace Report

def isPlayable (r : Report) : Bool :=
  r.prospect.isReachable && errorCount r.issues == 0

/-- How much the report can be relied on. -/
def confidence (r : Report) : Confidence :=
  if !r.prospect.isReachable || 0 < errorCount r.issues then .low
  else if simpleTaps < r.prospect.tapCount || simpleIssues < r.issues.length then .medium
  else .high

end Report

end TouchGame.Play

import TouchGame.Repair.Answer
import TouchGame.Repair.Brief
import TouchGame.Repair.Category
import TouchGame.Repair.Definitions
import TouchGame.Repair.Request
import TouchGame.Settings

/-!
# Repair cycles

One repair of a rule-set by a list of findings. Findings of single values are fixed in place, up to a
limit; then definitions are added and removed; then the rules that other local findings name are
revised by a service; what remains is only described, as a brief.

* `repair` : one cycle.
* `Result.isSuccess` : nothing remains and no new rule-set is needed.
-/

namespace TouchGame

namespace Game

/-- The list with another rule in the place of the first one with its id. -/
def replacedIn (r : Rule) : List Rule → List Rule
  | [] => []
  | old :: rest => if old.id == r.id then r :: rest else old :: replacedIn r rest

/-- A rule-set with another rule in the place of the first one with its id. -/
def withRule (g : Game) (r : Rule) : Game :=
  { g with rules := replacedIn r g.rules }

end Game

namespace Repair

/-- A service that answers a prompt with a text, or fails to. -/
abbrev Reviser := String → Option String

/-- What a repair cycle leads to. -/
structure Result where
  game : Game
  amendments : List Amendment
  remaining : List Finding
  /-- What to tell the author, if a new rule-set is needed. -/
  brief : Option String
  /-- The prompt that was sent, if one was. -/
  prompt : Option String

namespace Result

def needsRegeneration (r : Result) : Bool :=
  r.brief.isSome

/-- Whether nothing remains and no new rule-set is needed. -/
def isSuccess (r : Result) : Bool :=
  r.remaining.isEmpty && !r.needsRegeneration

end Result

/-! ## Fixes of single values -/

/-- The fixes of a list of findings, behind some that were made, up to a limit. -/
def autoFixes (limit : Number) (g : Game) (made : List Amendment) :
    List Finding → Except Fault (Game × List Amendment)
  | [] => .ok (g, made)
  | f :: rest =>
    if limit.le (.int made.length) then .ok (g, made)
    else do
      match ← autoFix g f with
      | some (next, amendment) => autoFixes limit next (made ++ [amendment]) rest
      | none => autoFixes limit g made rest

/-! ## Revision -/

/-- The rule that a finding names and that is there, if a revision can mend it. -/
def revisable? (g : Game) (f : Finding) : Option String :=
  if isDefinitional f then none
  else (f.location.rule.filter (!·.isEmpty)).filter fun id => (g.rule? id).isSome

def codesAbout (findings : List Finding) (rule : String) : List Code :=
  ((findings.filter (·.location.rule == some rule)).filterMap (·.label.code?)).eraseDups

/-- A revised rule put in place, with a record for each code; one that is too deep to be written is a
fault. -/
def putRule (findings : List Finding) (g : Game) (r : Rule) :
    Except Fault (Game × List Amendment) := do
  let before := ((g.rule? r.id).map (·.toJson)).getD .null
  let after ← r.document
  return (g.withRule r, (codesAbout findings r.id).map fun code =>
    ⟨code, "Rewrote rule", "script.rules." ++ r.id, before, after⟩)

/-- The revised rules of an answer put in place; those that do not fit or were not asked for are
left out. -/
def putRules (findings : List Finding) (asked : List String) (g : Game) :
    List Json → Except Fault (Game × List Amendment)
  | [] => .ok (g, [])
  | data :: rest => match (Rule.decode data).get?.filter (asked.contains ·.id) with
    | some r => do
      let (next, amendments) ← putRule findings g r
      let (last, more) ← putRules findings asked next rest
      return (last, amendments ++ more)
    | none => putRules findings asked g rest

/-- A revision of the rules that findings name: the rule-set, the records and the prompt. Without a
prompt or an answer nothing is revised. -/
def revise (reviser : Reviser) (context : Context) (g : Game) (findings : List Finding) :
    Except Fault (Game × List Amendment × Option String) :=
  let asked := (findings.filterMap (revisable? g)).eraseDups
  match (Request.of g (asked.filterMap g.rule?) findings context).prompt with
  | .error _ => .ok (g, [], none)
  | .ok prompt => match reviser prompt with
    | none => .ok (g, [], some prompt)
    | some answer => do
      let (next, amendments) ← putRules findings asked g (← revisedRules answer)
      return (next, amendments, some prompt)

/-- A revision, if there is something to revise and someone to do it. -/
def reviseIfAny (reviser : Option Reviser) (context : Context) (g : Game)
    (findings : List Finding) : Except Fault (Game × List Amendment × Option String) :=
  match reviser, findings with
  | some reviser, _ :: _ => revise reviser context g findings
  | _, _ => .ok (g, [], none)

/-! ## The cycle -/

/-- The code of a finding; one that is not in the catalogue is a fault. -/
def codeOf (f : Finding) : Except Fault Code :=
  match f.label with
  | .listed code => .ok code
  | .unlisted name _ => .error (.unlistedCode name)

/-- The findings whose code was neither mended nor handed over to the author. -/
def remaining (findings : List Finding) (amendments : List Amendment) (full : List Finding) :
    Except Fault (List Finding) := do
  let handled := amendments.map (·.code) ++ (← full.mapM codeOf)
  let coded ← findings.mapM fun f => return (← codeOf f, f)
  return (coded.filter fun (code, _) => !handled.contains code).map (·.2)

/-- One repair of a rule-set by a list of findings. -/
def repair (settings : Settings) (reviser : Option Reviser) (context : Context) (g : Game)
    (findings : List Finding) : Except Fault Result := do
  let (fixed, fixes) ← autoFixes settings.maxAutoRepairs g [] (findings.filter (·.isOf .autoFixable))
  let nearby := findings.filter (·.isOf .partialRegen)
  let (defined, definitions) := defineFixes fixed nearby
  let service := if settings.dryRun then none else reviser
  let toRevise := nearby.filter fun f => (revisable? defined f).isSome
  let (revised, revisions, prompt) ← reviseIfAny service context defined toRevise
  let full := findings.filter (·.isOf .fullRegen)
  let text ← if full.isEmpty then pure none else some <$> brief full
  let amendments := fixes ++ definitions ++ revisions
  return {
    game := revised
    amendments := amendments
    remaining := ← remaining findings amendments full
    brief := text
    prompt := prompt }

end Repair

end TouchGame

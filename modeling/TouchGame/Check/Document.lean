import TouchGame.Finding
import TouchGame.Script.Game

/-!
# Loading documents

A document becomes a rule-set in two steps: its required sections have to be there, and its fields
have to fit. Missing sections are reported alone, each only if none above it is missing.

* `Check.missingSections` : the sections that a document lacks.
* `Check.sections` : the findings about them.
* `Check.load` : the rule-set of a document, or the findings that stand against it.
* `Check.refusal` : those findings in one sentence.
-/

namespace TouchGame.Check

abbrev Section := List String

/-- The sections that a document must have, each behind those above it. -/
def requiredSections : List Section := [
  ["script"], ["script", "rules"], ["script", "layout"], ["script", "layout", "objects"],
  ["assetPlan"], ["assetPlan", "objects"]]

/-- The value that keys lead to, null where they lead nowhere. -/
def sectionValue (value : Json) : Section → Json
  | [] => value
  | key :: rest =>
    match value with
    | .obj fields => sectionValue ((Json.get? fields key).getD .null) rest
    | _ => .null

/-- The sections that a document lacks, without those below another one. -/
def missingSections (document : Json) : List Section :=
  requiredSections.foldl (fun missing required =>
    if missing.any (·.isPrefixOf required) then missing
    else if (sectionValue document required).isNull then missing ++ [required]
    else missing) []

/-- The name of a document key inside paths. -/
def sectionStep (key : String) : Step :=
  .name (if key == "assetPlan" then "asset_plan" else key)

/-- The finding about a section that is missing. -/
def missingSection (keys : Section) : Finding :=
  let name := Text.joined "." keys
  .critical .missingSection s!"Required section '{name}' is missing" s!"Add the '{name}' section"
    ⟨keys.map sectionStep, none, some name⟩

/-- The findings about the sections of a document. -/
def sections (document : Json) : List Finding :=
  match document with
  | .obj _ => (missingSections document).map missingSection
  | other => [.critical .malformedRuleset
      s!"Rule-set must be a JSON object, got {other.kindWord}"
      "Provide an object with 'script' and 'assetPlan' sections" .none]

def malformedField (c : Complaint) : Finding :=
  .critical .malformedRuleset s!"Malformed field '{c.place}': {c.cause.message}"
    "Correct the field to match the rule-set schema" ⟨[], none, some c.place⟩

/-- The rule-set of a document, or what stands against it. -/
def load (document : Json) : Except (List Finding) Game :=
  match sections document with
  | [] => match Game.decode document with
    | .ok game => .ok game
    | .bad complaints => .error (complaints.map malformedField)
  | findings => .error findings

/-- What is said in one sentence about a document that does not load. -/
def refusal (findings : List Finding) : String :=
  s!"Rule-set structure invalid with {findings.length} error(s)"

end TouchGame.Check

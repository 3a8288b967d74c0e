import TouchGame.Finding
import TouchGame.Json.Printer
import TouchGame.Script.Depth

/-!
# Requests for a revision

What the service that revises rules is told: its task, and for one revision the findings, the rules
they are about, and the identifiers that exist.

* `Request.of` : a request about rules of a rule-set.
* `Request.prompt` : its text.
-/

namespace TouchGame.Repair

/-- What a game is about. -/
structure Context where
  title : String
  description : String
  deriving DecidableEq, Repr

/-- Nothing is known about a game. -/
def Context.empty : Context := ⟨"", ""⟩

/-- All that the service may see for one revision. -/
structure Request where
  rules : List Rule
  findings : List Finding
  objects : List (String × String)
  counters : List (String × String)
  sounds : List (String × String)
  context : Context

namespace Request

/-- A request about rules of a rule-set: objects with their names, counters with their initial
values, sounds with their types. -/
def of (g : Game) (rules : List Rule) (findings : List Finding) (context : Context) : Request where
  rules := rules
  findings := findings
  objects := g.objects.map fun o => (o.id, o.name.textOr o.id)
  counters := g.counters.map fun c => (c.id, "initial " ++ c.initialValue.text)
  sounds := g.sounds.map fun s => (s.id, s.type.textOr "sound")
  context := context

def task : String :=
  "You repair rules of a small trigger/action game script. " ++
    "Change only what is needed to fix the listed errors, keep every rule id, " ++
    "and use only the identifiers you are given."

/-- The line about a finding; a code that is not in the catalogue cannot be written. -/
def findingLine (f : Finding) : Except Fault String :=
  match f.label with
  | .unlisted .. => .error .codeWithoutEntry
  | .listed code =>
    let remedy := match f.fix with
      | some fix => if fix.isEmpty then "" else s!" (fix: {fix})"
      | none => ""
    .ok (s!"- [{code.name}] {f.message}" ++ remedy)

def identifierLines : List (String × String) → String
  | [] => "- (none)"
  | entries => Text.joined "\n" (entries.map fun (id, note) => s!"- {id}: {note}")

def opening : String := "```json\n"

def closing : String := "\n```"

/-- The text of a request. -/
def prompt (r : Request) : Except Fault String := do
  let lines ← r.findings.mapM findingLine
  let documents ← r.rules.mapM (·.document)
  let title := if r.context.title.isEmpty then "Untitled game" else r.context.title
  let about := if r.context.description.isEmpty then "" else "\n" ++ r.context.description ++ "\n"
  let sections := [
    s!"The logic of the game \"{title}\" has the errors below. Fix the affected rules.\n" ++ about,
    "## Errors\n" ++ Text.joined "\n" lines ++ "\n",
    "## Affected rules\n" ++ opening ++ (Json.arr documents).indented ++ closing ++ "\n",
    "## Available objects\n" ++ identifierLines r.objects ++ "\n",
    "## Available counters\n" ++ identifierLines r.counters ++ "\n",
    "## Available sounds\n" ++ identifierLines r.sounds ++ "\n",
    "Return the corrected rules as a JSON array, keeping their ids:\n" ++ opening ++
      "[\n  \x7b\"id\": \"rule_xxx\", ...\x7d\n]" ++ closing]
  return Text.joined "\n" sections

end Request

end TouchGame.Repair

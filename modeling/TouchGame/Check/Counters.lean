import TouchGame.Check.Wiring

/-!
# Checks of counters and of what success needs

Every counter is written and read, and what a success rule waits for can change.
-/

namespace TouchGame.Check

/-- A counter at an index with the rules that read and write it. -/
def counterUse (index : Nat) (c : Counter) (readers writers : List Rule) : List Finding :=
  let path : Path := [.name "script", .name "counters", .index index]
  match readers, writers with
  | [], [] =>
    [.warning .unusedCounter s!"Counter \"{c.id}\" is never used"
      "Remove the counter or use it in a rule" ⟨path, none, some c.id⟩]
  | [], writer :: _ =>
    [.warning .counterNeverChecked
      s!"Counter \"{c.id}\" is changed but no condition ever checks it"
      "Add a counter condition that reacts to it, or remove it" ⟨path, some writer.id, some c.id⟩]
  | reader :: _, [] =>
    [.critical .counterNeverModified
      s!"Counter \"{c.id}\" is checked but never changed; it stays at {c.initialValue.text}"
      "Add a counter action that changes it" ⟨path, some reader.id, some c.id⟩]
  | _ :: _, _ :: _ => []

/-- The usage of every counter, given what was seen in the rules. -/
def checkCounterUses (g : Game) (seen : List Seen) : List Finding :=
  indexed (fun index c => counterUse index c (Seen.readers seen c.id) (g.counterWriters c.id))
    0 g.counters

/-- A condition of a success rule that waits for what nothing changes. -/
def successNeeds (g : Game) (r : Rule) (path : Path) (c : Condition) : List Finding :=
  match c with
  | .counter name .. => match name.name? with
    | some counter =>
      if (g.counterWriters counter).isEmpty then
        [.critical .unreachableSuccess
          s!"Rule \"{r.id}\": success needs counter \"{counter.shown}\" to change, but no rule changes it"
          "Add a rule with a counter action for it" ⟨path, some r.id, some counter.shown⟩]
      else []
    | none => []
  | .flag flag _ => match flag.name? with
    | some flag =>
      if (g.flagWriters flag).isEmpty then
        [.critical .unreachableSuccess
          s!"Rule \"{r.id}\": success needs flag \"{flag.shown}\", but no rule sets or toggles it"
          "Add a setFlag or toggleFlag action for it" ⟨path, some r.id, some flag.shown⟩]
      else []
    | none => []
  | .objectState target _ => match (r.resolve target).name? with
    | some object =>
      if (g.visibilityWriters object).isEmpty then
        [.warning .unreachableObjectState
          s!"Rule \"{r.id}\": success checks the state of \"{object.shown}\", but no rule shows or hides it"
          "Add a hide or show action for the object" ⟨path, some r.id, some object.shown⟩]
      else []
    | none => []
  | _ => []

/-- What the success rules wait for. -/
def successReachability (g : Game) : List Finding :=
  indexed (fun index r =>
    if r.mayFire "success" then
      indexed (fun i c => successNeeds g r
        [.name "script", .name "rules", .index index, .name "triggers", .name "conditions", .index i]
        c) 0 r.conditions
    else []) 0 g.rules

end TouchGame.Check

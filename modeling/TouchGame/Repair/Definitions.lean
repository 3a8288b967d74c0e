import TouchGame.Repair.AutoFix

/-!
# Fixes of definitions

Some findings have one obvious remedy in the definitions of a rule-set: a counter or sound that is
used but not defined is defined, and a counter that nothing uses is removed. The identifier is the
subject of the finding.

* `defineFix?` : the fix of one finding.
* `defineFixes` : the fixes of a list of findings, each on the rule-set behind those before it.
-/

namespace TouchGame

/-- The document of a counter with all its fields, empty ones as null. -/
def Counter.toFullJson (c : Counter) : Json :=
  .obj [(Field.id.wire, .str c.id),
    (Field.name.wire, match c.name with
      | .empty => .null
      | .value s => .str s
      | .number n => .num n),
    (Field.initialValue.wire, .num c.initialValue)]

namespace Repair

/-- A counter that is not defined yet, with its name as its id. -/
def newCounter (id : String) : Counter := ⟨id, .value id, 0⟩

/-- A sound that is not defined yet: a tap, for touches. -/
def newSound (id : String) : SoundPlan := ⟨id, .value "touch", .value "tap"⟩

/-- The definition of a counter. -/
def withCounter? (g : Game) (id : String) : Option (Game × Amendment) :=
  match g.counter? id with
  | some _ => none
  | none =>
    let counter := newCounter id
    some ({ g with counters := g.counters ++ [counter] },
      ⟨.invalidCounterName, "Added missing counter", "script.counters." ++ id, .null,
        counter.toFullJson⟩)

/-- The definition of a sound. -/
def withSound? (g : Game) (id : String) : Option (Game × Amendment) :=
  if g.soundIds.contains id then none
  else
    let sound := newSound id
    some ({ g with sounds := g.sounds ++ [sound] },
      ⟨.undefinedSoundId, "Added missing sound", "asset_plan.sounds." ++ id, .null,
        sound.part.tree.toJson⟩)

/-- The removal of a counter. -/
def withoutCounter? (g : Game) (id : String) : Option (Game × Amendment) :=
  (g.counter? id).map fun counter =>
    ({ g with counters := g.counters.eraseP (·.id == id) },
      ⟨.unusedCounter, "Removed unused counter", "script.counters." ++ id, counter.toFullJson,
        .null⟩)

/-- The fix of definitions that a code asks for. -/
def definitionOf? : Code → Option (Game → String → Option (Game × Amendment))
  | .invalidCounterName => some withCounter?
  | .undefinedSoundId => some withSound?
  | .unusedCounter => some withoutCounter?
  | _ => none

def isDefinitional (f : Finding) : Bool :=
  (f.label.code?.bind definitionOf?).isSome

def defineFix? (g : Game) (f : Finding) : Option (Game × Amendment) := do
  let fix ← f.label.code?.bind definitionOf?
  let id ← f.location.subject.filter (!·.isEmpty)
  fix g id

/-- The fixes of a list of findings, in order. -/
def defineFixes (g : Game) : List Finding → Game × List Amendment
  | [] => (g, [])
  | f :: rest => match defineFix? g f with
    | some (next, amendment) =>
      let (last, more) := defineFixes next rest
      (last, amendment :: more)
    | none => defineFixes g rest

end Repair

end TouchGame

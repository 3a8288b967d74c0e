import TouchGame.Finding
import TouchGame.Script.Game

/-!
# Lookups

What a check does that may fail. A repair may have put a number where a record belongs, and a number has
no fields; a document may write a list or an object as a type, and neither is a key of a table. A check
that comes to one of these ends there.

* `Check.look` : the record in a slot.
* `Check.inTable`, `Check.tabled` : whether a table lists a written type, and what it lists for it.
* `Check.indexedM`, `Check.eachM` : a check of every item of a list.
-/

namespace TouchGame

namespace Check

/-- The record in a slot, looked into for the sake of a field. -/
def look (field : Key) : Slot α → Except Fault (Option α)
  | .empty => .ok none
  | .value record => .ok (some record)
  | .number n => .error (.fieldOfNumber field.name n)

/-- Whether a table lists a written type. -/
def inTable (table : List String) (type : Json) : Except Fault Bool :=
  match type.typeFault? with
  | some fault => .error fault
  | none => .ok (type.text?.any table.contains)

/-- The findings of a check that a table lists for some types. -/
def tabled (table : List String) (type : Json) (check : Except Fault (List Finding)) :
    Except Fault (List Finding) := do
  if ← inTable table type then check else return []

/-- Findings of every item of a list with its position, from a position on. -/
def indexed (check : Nat → α → List Finding) (start : Nat) : List α → List Finding
  | [] => []
  | item :: rest => check start item ++ indexed check (start + 1) rest

/-- The same for a check that may fail. -/
def indexedM (check : Nat → α → Except Fault (List Finding)) (start : Nat) :
    List α → Except Fault (List Finding)
  | [] => .ok []
  | item :: rest => return (← check start item) ++ (← indexedM check (start + 1) rest)

def eachM (check : α → Except Fault (List Finding)) : List α → Except Fault (List Finding)
  | [] => .ok []
  | item :: rest => return (← check item) ++ (← eachM check rest)

end Check

def Rule.seenConditions (r : Rule) : Except Fault (List Condition) :=
  return ((← Check.look Field.conditions r.trigger).map (·.conditions)).getD []

end TouchGame

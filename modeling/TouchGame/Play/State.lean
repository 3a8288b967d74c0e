import TouchGame.Script.Game

/-!
# States of a game

A state says what each counter and flag holds, which objects are visible and which are hidden, how
much time has gone by, and whether the game is over.

* `Table.get?`, `Table.put` : values by name.
* `State.initial` : counters at their initial values, every placed object visible.
* `State.hide`, `State.reveal` : an object changes sides, so it is never on both.
* `State.finish` : the first outcome stays.
-/

namespace TouchGame

abbrev Table (α : Type) := List (String × α)

namespace Table

def get? (table : Table α) (name : String) : Option α :=
  table.lookup name

/-- A table with a value for a name, whatever it had before. -/
def put (name : String) (value : α) : Table α → Table α
  | [] => [(name, value)]
  | (key, old) :: rest =>
    if key == name then (key, value) :: rest else (key, old) :: put name value rest

end Table

namespace Play

/-- How a game stands. -/
inductive Outcome where
  | open
  | success
  | failure
  deriving DecidableEq, Repr

namespace Outcome

/-- The word for an outcome. -/
def word : Outcome → String
  | .open => "none"
  | .success => "success"
  | .failure => "failure"

def ofWord? (word : String) : Option Outcome :=
  [Outcome.open, .success, .failure].find? (·.word == word)

end Outcome

/-- A game at one moment. -/
structure State where
  counters : Table Number
  flags : Table Bool
  visible : List String
  hidden : List String
  elapsed : Number
  outcome : Outcome
  deriving DecidableEq, Repr

namespace State

def noTime : Number := .thousandths 0

/-- Nothing has happened and nothing is there. -/
def empty : State := ⟨[], [], [], [], noTime, .open⟩

/-- The state in which a game starts; of two counters with one id the later one counts. -/
def initial (g : Game) : State :=
  { empty with
    counters := g.counters.foldl (fun table c => table.put c.id c.initialValue) []
    visible := (g.layout.map (·.object)).eraseDups }

/-- What a counter holds; one that nobody mentioned holds zero. -/
def counter (s : State) (id : String) : Number :=
  (s.counters.get? id).getD 0

/-- What a flag holds; one that nobody mentioned is off. -/
def flag (s : State) (id : String) : Bool :=
  (s.flags.get? id).getD false

def setCounter (s : State) (id : String) (value : Number) : State :=
  { s with counters := s.counters.put id value }

def setFlag (s : State) (id : String) (value : Bool) : State :=
  { s with flags := s.flags.put id value }

def hide (s : State) (object : String) : State :=
  { s with visible := s.visible.filter (· != object), hidden := s.hidden.insert object }

def reveal (s : State) (object : String) : State :=
  { s with hidden := s.hidden.filter (· != object), visible := s.visible.insert object }

/-- Whether an object is hidden. -/
def isHidden (s : State) (object : String) : Bool :=
  s.hidden.contains object

def isOver (s : State) : Bool :=
  s.outcome != .open

def finish (s : State) (outcome : Outcome) : State :=
  if s.isOver then s else { s with outcome := outcome }

end State

end Play

end TouchGame

import TouchGame.Play.Firing
import TouchGame.Settings

/-!
# Walks

A walk is what a player does in a game: taps, drags and waits, in order. A trail is a walk that is
still going on, together with the state it has led to.

* `Trail.touch`, `Trail.wait` : one more move; the state is set apart from it.
* `Trail.walk` : the moves so far as a walk, with the time it takes.
-/

namespace TouchGame.Play

/-- How a player works on an object. -/
inductive Gesture where
  | tap
  | drag
  deriving DecidableEq, Repr

/-- One move of a player, with what comes of it. -/
inductive Move where
  | touch (gesture : Gesture) (target result : String)
  | wait (seconds : Number) (result : String)
  deriving DecidableEq, Repr

/-- Moves in order, how many of them are taps or drags, and the seconds they take. -/
structure Walk where
  moves : List Move
  taps : Nat
  time : Number
  deriving DecidableEq, Repr

/-- A walk that is still going on. -/
structure Trail where
  state : State
  /-- The moves so far, the latest first. -/
  latest : List Move
  taps : Nat
  /-- The longest wait so far. -/
  longest : Number

namespace Trail

def start (s : State) : Trail := ⟨s, [], 0, State.noTime⟩

/-- A tap or drag more. -/
def touch (t : Trail) (gesture : Gesture) (target result : String) : Trail :=
  { t with latest := .touch gesture target result :: t.latest, taps := t.taps + 1 }

/-- A wait more; waits run side by side, so the longest one counts. -/
def wait (t : Trail) (seconds : Number) (result : String) : Trail :=
  { t with latest := .wait seconds result :: t.latest, longest := t.longest.max seconds }

/-- The walk so far: it takes as long as its taps or as its longest wait. -/
def walk (t : Trail) (secondsPerTap : Number) : Except Fault Walk := do
  let tapping ← arithmetic ((Number.int t.taps).mul secondsPerTap)
  return ⟨t.latest.reverse, t.taps, tapping.max t.longest⟩

end Trail

end TouchGame.Play

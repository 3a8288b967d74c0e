/-!
# Paths

A path leads from a rule-set to one of its fields: names of fields and indexes into lists. An index
below zero counts from the end of its list.

A name between double underscores is reserved. It leads from a record, a list or a number to what all of
its kind are made of, which is no part of a rule-set and is not described here. A path without such names
is plain.
-/

namespace TouchGame

/-- One step of a path. -/
inductive Step where
  | name (field : String)
  | index (position : Int)
  deriving DecidableEq, Repr

/-- Whether a step is a name between double underscores. -/
def Step.isReserved : Step → Bool
  | .name field => field.startsWith "__" && field.endsWith "__"
  | .index _ => false

abbrev Path := List Step

namespace Path

/-- Whether a path stays within rule-sets, whatever stands there. -/
def isPlain (path : Path) : Bool :=
  !path.any Step.isReserved

/-- A path as text: names joined by points, indexes in brackets. -/
def textFrom (written : String) : Path → String
  | [] => written
  | .index position :: rest => textFrom (written ++ s!"[{position}]") rest
  | .name field :: rest =>
    textFrom (if written.isEmpty then field else written ++ "." ++ field) rest

/-- A whole path as text. -/
def text (path : Path) : String :=
  textFrom "" path

end Path

/-- The position in a list of a given length that an index means. -/
def position? (length : Nat) (index : Int) : Option Nat :=
  if 0 ≤ index then
    if index.toNat < length then some index.toNat else none
  else if index.natAbs ≤ length then some (length - index.natAbs)
  else none

end TouchGame

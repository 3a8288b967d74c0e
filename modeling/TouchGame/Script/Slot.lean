import TouchGame.Number.Text

/-!
# Optional fields

An optional field of a rule-set is empty, or holds a value of its own kind, or holds a bare number
that a repair filled into it without a look at its kind.

* `Slot.get?` : the value of the field's own kind.
* `Slot.text?` : a text that names something, that is, one that is not empty.
* `Slot.name?` : the same, or a number that stands in its place.
* `Slot.textOr` : the text, or a default for an empty one.
-/

namespace TouchGame

/-- An optional field whose own kind is `α`. -/
inductive Slot (α : Type) where
  | empty
  | value (a : α)
  | number (n : Number)
  deriving DecidableEq, Repr

/-- What names something: a text, or a number that stands in the field of a name. -/
inductive Name where
  | text (s : String)
  | number (n : Number)
  deriving DecidableEq, Repr

namespace Name

/-- Texts are names. -/
instance : Coe String Name := ⟨.text⟩

/-- The text of a name that is one. -/
def text? : Name → Option String
  | .text s => some s
  | .number _ => none

def number? : Name → Option Number
  | .text _ => none
  | .number n => some n

def shown : Name → String
  | .text s => s
  | .number n => n.text

/-- Whether a name stands before another one or is the same: numbers in order, then texts. -/
def le : Name → Name → Bool
  | .number m, .number n => m.le n
  | .number _, .text _ => true
  | .text _, .number _ => false
  | .text s, .text t => decide (s ≤ t)

end Name

namespace Slot

def get? : Slot α → Option α
  | .value a => some a
  | _ => none

def ofOption : Option α → Slot α
  | some a => .value a
  | none => .empty

/-- Whether nothing is there. -/
def isEmpty : Slot α → Bool
  | .empty => true
  | _ => false

/-- The text of a field, if it names something. -/
def text? : Slot String → Option String
  | .value s => if s.isEmpty then none else some s
  | _ => none

/-- The name that stands in a field; a number that was filled in is never zero. -/
def name? : Slot String → Option Name
  | .value s => if s.isEmpty then none else some (.text s)
  | .number n => some (.number n)
  | .empty => none

/-- The text of a field, or a default where there is none. -/
def textOr (default : String) : Slot String → String
  | .value s => if s.isEmpty then default else s
  | .number n => n.text
  | .empty => default

/-- A choice inside a signature; an empty field counts as the default. -/
def signatureOr (default : String) : Slot String → String
  | .value s => if s.isEmpty then default else s
  | .number n => n.signature
  | .empty => default

def shown : Slot String → String
  | .value s => s
  | .number n => n.text
  | .empty => "None"

/-- A field inside a signature. -/
def signature : Slot String → String
  | .value s => s
  | .number n => n.signature
  | .empty => "-"

end Slot

end TouchGame

import TouchGame.Json.Basic
import TouchGame.Number.Numeral
import TouchGame.Script.Part

/-!
# Decoding

Reading a typed value out of a document. A value that does not fit is answered by the complaints
about every field at fault, in the order of the fields.

* `Mismatch` : why a field does not fit, and its wording.
* `Decoded` : a value, or the complaints; as an applicative it collects the complaints of all parts.
* `Decode.text`, `real`, `integer`, `quantity`, `flag` : the lenient readers of single values.
* `Decode.required`, `optional`, `defaulted` : fields of an object.
-/

namespace TouchGame

/-- Why a value does not fit its field. -/
inductive Mismatch where
  | missing
  | notText
  | notNumber
  | unreadableNumber
  | notInteger
  | unreadableInteger
  | fractionalInteger
  | oversizedInteger
  | endlessInteger
  | notFlag
  | unreadableFlag
  | notList
  | notObject
  | notSet
  | notRecord (noun : String)
  | brokenText
  | tooDeep
  deriving DecidableEq, Repr

/-- The wording of a mismatch. -/
def Mismatch.message : Mismatch → String
  | .missing => "Field required"
  | .notText => "Input should be a valid string"
  | .notNumber => "Input should be a valid number"
  | .unreadableNumber => "Input should be a valid number, unable to parse string as a number"
  | .notInteger => "Input should be a valid integer"
  | .unreadableInteger => "Input should be a valid integer, unable to parse string as an integer"
  | .fractionalInteger => "Input should be a valid integer, got a number with a fractional part"
  | .oversizedInteger => "Unable to parse input string as an integer, exceeded maximum size"
  | .endlessInteger => "Input should be a finite number"
  | .notFlag => "Input should be a valid boolean"
  | .unreadableFlag => "Input should be a valid boolean, unable to interpret input"
  | .notList => "Input should be a valid list"
  | .notObject => "Input should be a valid dictionary"
  | .notSet => "Input should be a valid frozenset"
  | .notRecord noun => s!"Input should be a valid dictionary or instance of {noun}"
  | .brokenText => "Input should be a valid string, unable to parse raw data as a unicode string"
  | .tooDeep => "Recursion error - maximum validation depth exceeded"

/-- A mismatch and where it stands in the document. -/
structure Complaint where
  path : Path
  cause : Mismatch
  deriving DecidableEq, Repr

def Complaint.within (step : Step) (c : Complaint) : Complaint :=
  { c with path := step :: c.path }

/-- The place of a complaint, all steps joined by points. -/
def Complaint.place (c : Complaint) : String :=
  Text.joined "." <| c.path.map fun
    | .name field => field
    | .index position => toString position

/-- A value read from a document, or the complaints about it. -/
inductive Decoded (α : Type) where
  | ok (value : α)
  | bad (complaints : List Complaint)

namespace Decoded

def fail (cause : Mismatch) : Decoded α :=
  .bad [⟨[], cause⟩]

def within (step : Step) : Decoded α → Decoded α
  | .ok a => .ok a
  | .bad complaints => .bad (complaints.map (·.within step))

/-- A function of a value that was read. -/
def map (f : α → β) : Decoded α → Decoded β
  | .ok a => .ok (f a)
  | .bad complaints => .bad complaints

/-- A function applied to an argument, the complaints about both collected. -/
def apply : Decoded (α → β) → Decoded α → Decoded β
  | .ok f, .ok a => .ok (f a)
  | .ok _, .bad complaints => .bad complaints
  | .bad complaints, .ok _ => .bad complaints
  | .bad first, .bad second => .bad (first ++ second)

/-- Readings of several fields are combined with all of their complaints. -/
instance : Applicative Decoded where
  pure := .ok
  map f x := x.map f
  seq f x := f.apply (x ())

def get? : Decoded α → Option α
  | .ok a => some a
  | .bad _ => none

end Decoded

namespace Decode

/-! ## Single values -/

/-- A text. -/
def text : Json → Decoded String
  | .str s => .ok s
  | _ => .fail .notText

/-- A text that is read as something else, which has to consist of characters. -/
def spelled (s : String) (read : List Char → Decoded α) : Decoded α :=
  if Text.isWellFormed s then read s.toList else .fail .brokenText

def realOr (cause : Mismatch) : Option Binary64 → Decoded Number
  | some x => .ok (.real x)
  | none => .fail cause

/-- A double: from a number, a truth value or a numeral. -/
def real : Json → Decoded Number
  | .num (.int n) => realOr .notNumber (Binary64.ofInt? n)
  | .num (.real x) => .ok (.real x)
  | .bool b => .ok (.real ((Decimal.mk b.toNat 0).toBinary64 false))
  | .str s => spelled s fun cs => realOr .unreadableNumber (Numeral.looseReal? cs)
  | _ => .fail .notNumber

/-- The first magnitude that a double must stay below to be read as a whole number. -/
def wordBound : Nat := 9223372036854775808

def integerMismatch : NumeralFault → Mismatch
  | .unreadable => .unreadableInteger
  | .tooLong _ => .oversizedInteger

/-- A whole number: from a number without a fraction, a truth value or a numeral. -/
def integer : Json → Decoded Number
  | .num (.int n) => .ok (.int n)
  | .num (.real x) =>
    if x.isFinite then match x.whole? with
      | some n => if n.natAbs < wordBound then .ok (.int n) else .fail .oversizedInteger
      | none => .fail .fractionalInteger
    else .fail .endlessInteger
  | .bool b => .ok (.int b.toNat)
  | .str s => spelled s fun cs => match Numeral.looseInteger cs with
    | .ok n => .ok (.int n)
    | .error fault => .fail (integerMismatch fault)
  | _ => .fail .notInteger

/-- A number of either kind, from the reading as a whole number and that as a double; a value that
fits neither has both complaints. -/
def either (whole double : Decoded Number) : Decoded Number :=
  match whole, double with
  | .ok n, _ => .ok n
  | .bad _, .ok x => .ok x
  | .bad first, .bad second =>
    .bad (first.map (·.within (.name "int")) ++ second.map (·.within (.name "float")))

/-- A number of either kind: it keeps the kind it was written in, a numeral is whole if it can be. -/
def quantity : Json → Decoded Number
  | .num n => .ok n
  | value => either (integer value) (real value)

def yesWords : List String := ["1", "true", "t", "yes", "y", "on"]

def noWords : List String := ["0", "false", "f", "no", "n", "off"]

/-- A truth value: itself, a number that is one or zero, or a word for it. -/
def flag : Json → Decoded Bool
  | .bool b => .ok b
  | .num (.int n) =>
    if n = 0 then .ok false
    else if n = 1 then .ok true
    else if -wordBound ≤ n ∧ n < wordBound then .fail .unreadableFlag
    else .fail .notFlag
  | .num (.real x) => match x.whole? with
    | some 0 => .ok false
    | some 1 => .ok true
    | some n => if n.natAbs < wordBound then .fail .unreadableFlag else .fail .notFlag
    | none => .fail .notFlag
  | .str s => spelled s fun cs =>
    let word := Numeral.lowerWord cs
    if yesWords.contains word then .ok true
    else if noWords.contains word then .ok false
    else .fail .unreadableFlag
  | _ => .fail .notFlag

/-- Free-form fields. -/
def fields : Json → Decoded Json.Fields
  | .obj fields => .ok fields
  | _ => .fail .notObject

def itemsFrom (read : Json → Decoded α) (index : Nat) : List Json → Decoded (List α)
  | [] => .ok []
  | item :: rest =>
    List.cons <$> (read item).within (.index index) <*> itemsFrom read (index + 1) rest

def list (read : Json → Decoded α) : Json → Decoded (List α)
  | .arr items => itemsFrom read 0 items
  | _ => .fail .notList

def record (noun : String) (read : Json.Fields → Decoded α) : Json → Decoded α
  | .obj fields => read fields
  | _ => .fail (.notRecord noun)

/-! ## Fields of an object -/

/-- The value of a field and the key it stands under; the document key wins over the name. -/
def field? (fields : Json.Fields) (key : Key) : Option (String × Json) :=
  match Json.get? fields key.wire with
  | some value => some (key.wire, value)
  | none => (Json.get? fields key.name).map fun value => (key.name, value)

def required (fields : Json.Fields) (key : Key) (read : Json → Decoded α) : Decoded α :=
  match field? fields key with
  | some (found, value) => (read value).within (.name found)
  | none => (Decoded.fail .missing).within (.name key.wire)

/-- A field that has a default. -/
def defaulted (fields : Json.Fields) (key : Key) (default : α) (read : Json → Decoded α) :
    Decoded α :=
  match field? fields key with
  | some (found, value) => (read value).within (.name found)
  | none => .ok default

/-- A field that may be missing or null. -/
def optional (fields : Json.Fields) (key : Key) (read : Json → Decoded α) : Decoded (Slot α) :=
  match field? fields key with
  | some (_, .null) => .ok .empty
  | some (found, value) => ((read value).within (.name found)).map .value
  | none => .ok .empty

/-- A number that may be missing or null. -/
def optionalNumber (fields : Json.Fields) (key : Key) (read : Json → Decoded Number) :
    Decoded (Option Number) :=
  match field? fields key with
  | some (_, .null) => .ok none
  | some (found, value) => ((read value).within (.name found)).map some
  | none => .ok none

end Decode

end TouchGame

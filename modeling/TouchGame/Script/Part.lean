import TouchGame.Fault
import TouchGame.Script.Key
import TouchGame.Script.Path
import TouchGame.Script.Slot

/-!
# Parts of a rule-set

A record of a rule-set is described once, by the list of its parts. Such a list tells how the record
is written and which numbers a path into it reaches, as far as the path is plain.

* `Tree` : a record as nested fields by name; `Tree.toJson` writes it and leaves empty fields out.
* `Place` : what stands at the end of a path, with the way to put a number there.
* `Part` : a field inside a record, as its tree and the places under it.
* `Number.component?` : the numbers that paths find below a number.
-/

namespace TouchGame

/-- A record as nested fields. Free-form data has no place for doubles without a value. -/
inductive Tree where
  | data (value : Json)
  | free (value : Json)
  | record (members : List (Key × Tree))
  | items (list : List Tree)
  deriving Inhabited

namespace Tree

/-- Whether nothing is there. -/
def isEmpty : Tree → Bool
  | .data .null | .free .null => true
  | _ => false

mutual

/-- The document of a tree. -/
def toJson : Tree → Json
  | .data value => value
  | .free value => value.settled
  | .record members => .obj (toFields members)
  | .items list => .arr (toItems list)

/-- The document fields of a record, the empty ones left out. -/
def toFields : List (Key × Tree) → List (String × Json)
  | [] => []
  | (key, member) :: rest =>
    if member.isEmpty then toFields rest else (key.wire, member.toJson) :: toFields rest

def toItems : List Tree → List Json
  | [] => []
  | item :: rest => item.toJson :: toItems rest

end

/-- The text that stands alone in a field. -/
def text? : Tree → Option String
  | .data value | .free value => value.text?
  | _ => none

def members : Tree → List (Key × Tree)
  | .record members => members
  | _ => []

end Tree

/-- What stands somewhere in a `ρ`: a number or nothing, each with the `ρ` that has another number
there; or either of them where no other number can be put, with the fault of trying; or anything
else. -/
inductive Place (ρ : Type) where
  | number (current : Number) (put : Number → ρ)
  | vacant (put : Number → ρ)
  | fixed (current : Option Number) (refusal : Fault)
  | other

/-- The same place seen from a larger value. -/
def Place.map (f : ρ → σ) : Place ρ → Place σ
  | .number current put => .number current fun n => f (put n)
  | .vacant put => .vacant fun n => f (put n)
  | .fixed current refusal => .fixed current refusal
  | .other => .other

namespace Number

/-- The components of a number by name: as a complex number and, if it is whole, as a quotient. -/
def component? : Number → String → Option Number
  | .int n, "real" | .int n, "numerator" => some (.int n)
  | .int _, "imag" => some 0
  | .int _, "denominator" => some 1
  | .real x, "real" => some (.real x)
  | .real _, "imag" => some (.thousandths 0)
  | _, _ => none

/-- What stands at a path below a number. -/
def componentAt? (n : Number) : Path → Option (Place ρ)
  | [.name field] => (n.component? field).map fun m => .fixed (some m) (.componentOfNumber field n)
  | .name field :: rest => (n.component? field).bind (·.componentAt? rest)
  | _ => none

/-- What stands at a path from a number on, given how to put another one there. -/
def place? (n : Number) (put : Number → ρ) : Path → Option (Place ρ)
  | [] => some (.number n put)
  | path => n.componentAt? path

end Number

/-- A field of a `ρ`: how it is written, and the places that paths into it reach. -/
structure Part (ρ : Type) where
  tree : Tree
  place? : Path → Option (Place ρ)

namespace Part

/-- The same part seen from a larger value. -/
def map (f : ρ → σ) (part : Part ρ) : Part σ where
  tree := part.tree
  place? path := (part.place? path).map (·.map f)

/-- A field with nothing below it. -/
def leaf (value : Json) (place : Place ρ) : Part ρ where
  tree := .data value
  place? path := match path with
    | [] => some place
    | _ :: _ => none

/-- A text that is always there. -/
def text (value : String) : Part ρ :=
  leaf (.str value) .other

def number (value : Number) (put : Number → ρ) : Part ρ where
  tree := .data (.num value)
  place? := value.place? put

/-- A field that is empty. -/
def empty (put : Number → ρ) : Part ρ :=
  leaf .null (.vacant put)

def number? (value : Option Number) (put : Option Number → ρ) : Part ρ :=
  match value with
  | some n => number n fun m => put (some m)
  | none => empty fun m => put (some m)

/-- An optional field, given the part of a value of its kind. -/
def slot (part : α → Part ρ) (value : Slot α) (put : Slot α → ρ) : Part ρ :=
  match value with
  | .empty => empty fun n => put (.number n)
  | .value a => part a
  | .number n => number n fun m => put (.number m)

/-- An optional text. -/
def text? (value : Slot String) (put : Slot String → ρ) : Part ρ :=
  slot text value put

/-- A flag, below which paths find the components of one or zero. -/
def flag (value : Bool) : Part ρ where
  tree := .data (.bool value)
  place? path := match path with
    | [] => some .other
    | path => (Number.int value.toNat).componentAt? path

def flag? (value : Slot Bool) (put : Slot Bool → ρ) : Part ρ :=
  slot flag value put

def inner (part : α → Part α) (value : Slot α) (put : Slot α → ρ) : Part ρ :=
  slot (fun a => (part a).map fun b => put (.value b)) value put

/-- Named parts side by side. -/
def fields (parts : List (Key × Part ρ)) : Part ρ where
  tree := .record (parts.map fun (key, part) => (key, part.tree))
  place? path := match path with
    | [] => some .other
    | .name field :: rest =>
      match parts.find? (·.1.name == field) with
      | some (_, part) => part.place? rest
      | none => none
    | .index _ :: _ => none

/-- The place of the fields that the kind of a record does not know, which are none. -/
def unknownFields? (noun : String) : Path → Option (Place ρ)
  | [.name field] =>
    if field == Field.extras.name then some (.fixed none (.fieldOfRecord field noun)) else none
  | _ => none

/-- A record of a known kind; the noun is what faults and complaints call it. -/
def record (noun : String) (parts : List (Key × Part ρ)) : Part ρ where
  tree := (fields parts).tree
  place? path := ((fields parts).place? path).or (unknownFields? noun path)

/-- A record which paths may also enter by shortcuts, which are not written. -/
def withShortcuts (part : Part ρ) (shortcuts : List (Key × Part ρ)) : Part ρ where
  tree := part.tree
  place? path := (part.place? path).or ((fields shortcuts).place? path)

/-- A list, given the part of each of its items. -/
def itemsOf (parts : List (Part α)) (list : List α) (put : List α → ρ) : Part ρ where
  tree := .items (parts.map (·.tree))
  place? path := match path with
    | [] => some .other
    | .index i :: rest =>
      match position? list.length i with
      | some k => (parts[k]?).bind fun part =>
          (part.place? rest).map (·.map fun item => put (list.set k item))
      | none => none
    | .name _ :: _ => none

/-- A list of values with parts. -/
def items (part : α → Part α) (list : List α) (put : List α → ρ) : Part ρ :=
  itemsOf (list.map part) list put

def plainNumber (n : Number) : Part Number :=
  number n id

def numbers? : Slot (List Number) → (Slot (List Number) → ρ) → Part ρ :=
  inner fun list => items plainNumber list id

end Part

/-- What stands at a path inside free-form data, where only lists and numbers have steps. -/
def Json.place? (put : Json → ρ) : Path → Json → Option (Place ρ)
  | path, .num n => n.place? (fun m => put (.num m)) path
  | [], .null => some (.vacant fun n => put (.num n))
  | [], _ => some .other
  | path, .bool b => (Number.int b.toNat).componentAt? path
  | .index i :: rest, .arr items =>
    match position? items.length i with
    | some k => (items[k]?).bind (place? (fun item => put (.arr (items.set k item))) rest)
    | none => none
  | _, _ => none

/-- Free-form fields, which paths do not enter. -/
def Part.object (fields : Json.Fields) : Part ρ where
  tree := .free (.obj fields)
  place? path := if path.isEmpty then some .other else none

def Part.free (value : Json) (put : Json → ρ) : Part ρ where
  tree := .free value
  place? path := value.place? put path

end TouchGame

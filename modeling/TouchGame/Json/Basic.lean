import TouchGame.Number.Text
import TouchGame.Text.Quoted

/-!
# Documents

A document is a JSON value. Objects keep the order of their fields, and numbers stay whole or
double as they were written.

* `Json.get?` : the first field of a name.
* `Json.put` : a field set in place, or added at the end.
* `Json.settled` : a value with null in the place of doubles without a value.
* `Json.beyond?` : the first value that lies deeper than a number of levels.
* `Json.literal` : a value on one line as signatures and messages show it.
-/

namespace TouchGame

/-- A JSON value. -/
inductive Json where
  | null
  | bool (value : Bool)
  | num (value : Number)
  | str (value : String)
  | arr (items : List Json)
  | obj (fields : List (String × Json))
  deriving Repr, Inhabited

namespace Json

/-- The fields of an object. -/
abbrev Fields := List (String × Json)

def get? (fields : Fields) (name : String) : Option Json :=
  fields.lookup name

/-- A field set to a value: in its place if the name occurs, else at the end. -/
def put (name : String) (value : Json) : Fields → Fields
  | [] => [(name, value)]
  | (key, old) :: rest =>
    if key == name then (key, value) :: rest else (key, old) :: put name value rest

def isNull : Json → Bool
  | .null => true
  | _ => false

/-- The text that a value is, if it is one. -/
def text? : Json → Option String
  | .str s => some s
  | _ => none

/-- The word by which messages name the kind of a value. -/
def kindWord : Json → String
  | .null => "NoneType"
  | .bool _ => "bool"
  | .num value => value.kindWord
  | .str _ => "str"
  | .arr _ => "list"
  | .obj _ => "dict"

/-- Whether a value is a list or an object. -/
def isContainer : Json → Bool
  | .arr _ | .obj _ => true
  | _ => false

mutual

/-- A value with null in the place of every double that is infinite or not a number. -/
def settled : Json → Json
  | .num value => if value.isFinite then .num value else .null
  | .arr items => .arr (settledItems items)
  | .obj fields => .obj (settledFields fields)
  | value => value

def settledItems : List Json → List Json
  | [] => []
  | item :: rest => settled item :: settledItems rest

def settledFields : List (String × Json) → List (String × Json)
  | [] => []
  | (name, value) :: rest => (name, settled value) :: settledFields rest

end

mutual

/-- The first value, outer ones before inner ones, that lies deeper than a number of levels; a value
itself lies on the first level. -/
def beyond? (levels : Nat) (value : Json) : Option Json :=
  match levels, value with
  | 0, value => some value
  | levels + 1, .arr items => itemsBeyond? levels items
  | levels + 1, .obj fields => fieldsBeyond? levels fields
  | _ + 1, _ => none
termination_by structural value

/-- The first value inside the items of a list that lies too deep. -/
def itemsBeyond? (levels : Nat) (items : List Json) : Option Json :=
  match items with
  | [] => none
  | item :: rest => (beyond? levels item).or (itemsBeyond? levels rest)
termination_by structural items

/-- The first value inside the fields of an object that lies too deep. -/
def fieldsBeyond? (levels : Nat) (fields : List (String × Json)) : Option Json :=
  match fields with
  | [] => none
  | (_, value) :: rest => (beyond? levels value).or (fieldsBeyond? levels rest)
termination_by structural fields

end

mutual

/-- A value on one line: texts in quotes, lists in brackets, objects in braces. -/
def literal : Json → String
  | .null => "None"
  | .bool value => if value then "True" else "False"
  | .num value => value.text
  | .str value => Text.quoted value
  | .arr items => "[" ++ Text.joined ", " (literalItems items) ++ "]"
  | .obj fields => "\x7b" ++ Text.joined ", " (literalFields fields) ++ "\x7d"

def literalItems : List Json → List String
  | [] => []
  | item :: rest => literal item :: literalItems rest

def literalFields : List (String × Json) → List String
  | [] => []
  | (name, value) :: rest => (Text.quoted name ++ ": " ++ literal value) :: literalFields rest

end

/-- A value inside a message: a text as it is, anything else on one line. -/
def shown : Json → String
  | .str s => s
  | value => value.literal

end Json

end TouchGame

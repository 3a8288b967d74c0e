import TouchGame.Script.Game
import TouchGame.Text.Case

/-!
# Trigger signatures

A signature is a text that says when a rule fires: the keys of its conditions, sorted, with targets
resolved and region coordinates rounded to two decimals. Rules with one signature fire on the same
trigger.

* `Rule.keyOf` : the key of one condition.
* `Rule.signature` : the signature of a rule, empty without conditions.
-/

namespace TouchGame

def sortTexts (texts : List String) : List String :=
  texts.mergeSort fun a b => decide (a ≤ b)

def sortedDistinct (texts : List String) : List String :=
  sortTexts texts.eraseDups

def numberSignature : Option Number → String
  | some n => n.signature
  | none => "-"

def roundedCoordinate : Number → Number
  | .int n => .int n
  | .real x => .real (x.roundTo 2)

/-- A region inside a signature. -/
def Region.signature (r : Region) : List String :=
  [(roundedCoordinate r.x).signature, (roundedCoordinate r.y).signature,
    numberSignature (r.width.map roundedCoordinate), numberSignature (r.height.map roundedCoordinate)]

namespace Rule

/-- The fields that make a known condition's key; absent targets and choices are filled in. -/
def keyFields (r : Rule) : Condition → List String
  | .touch target touchType => [(r.resolve target).signature, touchType.signatureOr "down"]
  | .collision target collisionType _ => [(r.resolve target).signature, collisionType.signatureOr "enter"]
  | .counter name comparison value =>
    [name.signature, comparison.signatureOr "greaterOrEqual", numberSignature value]
  | .time timeType seconds interval =>
    [timeType.signature, numberSignature seconds, numberSignature interval]
  | .flag flag flagState => [flag.signature, flagState.signatureOr "ON"]
  | .gameState state => [state.signature]
  | .position target area region =>
    (r.resolve target).signature :: area.signature :: ((region.get?.map (·.signature)).getD [])
  | .animation target condition frame _ _ =>
    [(r.resolve target).signature, condition.signature, numberSignature frame]
  | .objectState target state => [(r.resolve target).signature, state.signature]
  | .random probability _ => [numberSignature probability]
  | .unknown type extras => [unknownFields type extras]
where
  /-- All fields of an unknown condition that are not null, sorted by name, on one line. -/
  unknownFields (type : Json) (extras : List Extra) : String :=
    let fields := (Field.type.wire, type) :: extras.map fun e => (e.name, e.written)
    let present := fields.filter (!·.2.isNull)
    let sorted := present.mergeSort fun a b => decide (a.1 ≤ b.1)
    let pairs := sorted.map fun (name, value) =>
      "(" ++ Text.quoted name ++ ", " ++ value.literal ++ ")"
    "[" ++ Text.joined ", " pairs ++ "]"

/-- The key of a condition: its type and what tells it from others of the type. -/
def keyOf (r : Rule) (c : Condition) : String :=
  c.kind.shown ++ ":" ++ Text.joined "," (r.keyFields c)

/-- The signature of a rule whose conditions have these keys. -/
def joinedKeys (r : Rule) (keys : List String) : String :=
  match sortTexts keys with
  | [] => ""
  | [key] => key
  | keys => Text.upperCase r.operator ++ "[" ++ Text.joined "|" keys ++ "]"

/-- The signature of a rule's trigger. -/
def signature (r : Rule) : String :=
  r.joinedKeys (r.conditions.map r.keyOf)

end Rule

end TouchGame

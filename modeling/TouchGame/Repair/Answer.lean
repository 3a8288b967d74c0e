import TouchGame.Fault
import TouchGame.Json.Reader
import TouchGame.Text.Blank

/-!
# Answers with revised rules

The service answers with a list of rules as a document, alone or between marks inside other text.

* `payload` : the part of an answer that should be a document.
* `revisedRules` : the objects in the list that an answer holds.
-/

namespace TouchGame.Repair

/-- The mark in front of a document. -/
def openingMark : List Char := "```json".toList

/-- The mark behind a document. -/
def closingMark : List Char := "```".toList

/-- The text before the first occurrence of a mark. -/
def beforeMark? (mark : List Char) : List Char → Option (List Char)
  | [] => none
  | c :: rest =>
    if mark.isPrefixOf (c :: rest) then some []
    else (beforeMark? mark rest).map (c :: ·)

/-- The text behind the first occurrence of a mark. -/
def behindMark? (mark : List Char) : List Char → Option (List Char)
  | [] => none
  | c :: rest =>
    if mark.isPrefixOf (c :: rest) then some ((c :: rest).drop mark.length)
    else behindMark? mark rest

/-- The text between the first opening mark and the next closing one. -/
def fenced? (cs : List Char) : Option (List Char) :=
  (behindMark? openingMark cs).bind (beforeMark? closingMark)

/-- The part of an answer that should be a document, without blanks at its ends. -/
def payload (cs : List Char) : List Char :=
  Text.trim Text.isBlank ((fenced? cs).getD cs)

def isObject : Json → Bool
  | .obj _ => true
  | _ => false

/-- The objects in the list that an answer holds; none if it holds no list. A whole number of too
many digits in it is a fault. -/
def revisedRules (answer : String) : Except Fault (List Json) :=
  match Json.read (payload answer.toList) with
  | .ok (.arr items) => .ok (items.filter isObject)
  | .ok _ | .error .malformed => .ok []
  | .error (.tooManyDigits digits) => .error (.tooManyDigits digits)

end TouchGame.Repair

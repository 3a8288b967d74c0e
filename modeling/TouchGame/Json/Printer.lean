import TouchGame.Json.Basic

/-!
# Printing documents

* `Json.compact` : a value on one line without gaps.
* `Json.indented` : a value with one field or item a line, two spaces for each level.

Both write the characters from the space to the tilde only: others as one or two units of four
hexadecimal digits.
-/

namespace TouchGame.Json

def unitEscape (unit : Nat) : List Char :=
  '\\' :: 'u' :: Text.hexPadded 4 unit

/-- A character inside a printed text. -/
def charEscape (c : Char) : List Char :=
  let code := c.toNat
  if c == '"' || c == '\\' then ['\\', c]
  else if c == '\n' then ['\\', 'n']
  else if c == '\r' then ['\\', 'r']
  else if c == '\t' then ['\\', 't']
  else if code == 8 then ['\\', 'b']
  else if code == 12 then ['\\', 'f']
  else if 32 ≤ code && code < 127 then [c]
  else if code < 0x10000 then unitEscape code
  else match Text.surrogate? c with
    | some unit => unitEscape unit
    | none =>
      let high := code - 0x10000
      unitEscape (0xd800 + high / 0x400) ++ unitEscape (0xdc00 + high % 0x400)

def printText (s : String) : String :=
  "\"" ++ String.ofList (s.toList.flatMap charEscape) ++ "\""

/-- A printed number; the doubles without a value have words of their own. -/
def printNumber : Number → String
  | .real .nan => "NaN"
  | .real (.infinite negative) => if negative then "-Infinity" else "Infinity"
  | n => n.text

mutual

/-- A value on one line without gaps. -/
def compact : Json → String
  | .null => "null"
  | .bool value => if value then "true" else "false"
  | .num value => printNumber value
  | .str value => printText value
  | .arr items => "[" ++ Text.joined "," (compactItems items) ++ "]"
  | .obj fields => "\x7b" ++ Text.joined "," (compactFields fields) ++ "\x7d"

def compactItems : List Json → List String
  | [] => []
  | item :: rest => compact item :: compactItems rest

def compactFields : List (String × Json) → List String
  | [] => []
  | (name, value) :: rest => (printText name ++ ":" ++ compact value) :: compactFields rest

end

def lineBreak (level : Nat) : String :=
  "\n" ++ String.ofList (List.replicate (2 * level) ' ')

/-- Lines of a level between brackets. -/
def bracketed (opening closing : String) (level : Nat) : List String → String
  | [] => opening ++ closing
  | lines =>
    opening ++ lineBreak (level + 1) ++ Text.joined ("," ++ lineBreak (level + 1)) lines ++
      lineBreak level ++ closing

mutual

/-- A value that starts at a level. -/
def indentedAt (level : Nat) : Json → String
  | .null => "null"
  | .bool value => if value then "true" else "false"
  | .num value => printNumber value
  | .str value => printText value
  | .arr items => bracketed "[" "]" level (indentedItems (level + 1) items)
  | .obj fields => bracketed "\x7b" "\x7d" level (indentedFields (level + 1) fields)

def indentedItems (level : Nat) : List Json → List String
  | [] => []
  | item :: rest => indentedAt level item :: indentedItems level rest

/-- The fields of an object, each at a level. -/
def indentedFields (level : Nat) : List (String × Json) → List String
  | [] => []
  | (name, value) :: rest =>
    (printText name ++ ": " ++ indentedAt level value) :: indentedFields level rest

end

def indented (value : Json) : String :=
  indentedAt 0 value

end TouchGame.Json

import TouchGame.Json.Basic
import TouchGame.Number.Numeral

/-!
# Reading documents

`Json.read` reads one JSON value from a text: the standard grammar, and the words `NaN`, `Infinity`
and `-Infinity` as numbers. A number with a point or an exponent is a double, any other is whole and
has a limited number of digits. Of two fields with one name the later value stands in the place of
the earlier. What is wrong first, from the front of the text, is the cause of a failure.
-/

namespace TouchGame.Json

/-- Why a text is not read as a document. -/
inductive ReadFault where
  | malformed
  | tooManyDigits (digits : Nat)
  deriving DecidableEq, Repr

namespace Reader

/-- What was read from the front of a text, with the rest of the text. -/
abbrev Reading (α : Type) := Except ReadFault (α × List Char)

def wellFormed : Option (α × List Char) → Reading α
  | some result => .ok result
  | none => .error .malformed

def isGap (c : Char) : Bool :=
  c == ' ' || c == '\t' || c == '\n' || c == '\r'

def skip (cs : List Char) : List Char :=
  cs.dropWhile isGap

/-- A fraction behind a whole part: a point and at least one digit. -/
def fraction : List Char → List Char × List Char
  | '.' :: rest =>
    match rest.takeWhile Char.isDigit with
    | [] => ([], '.' :: rest)
    | digits => (digits, rest.dropWhile Char.isDigit)
  | cs => ([], cs)

/-- An exponent: the letter, a sign and at least one digit. -/
def exponent? : List Char → Option (Int × List Char)
  | c :: rest =>
    if c == 'e' || c == 'E' then
      let (negative, tail) := Numeral.sign rest
      match tail.takeWhile Char.isDigit with
      | [] => none
      | digits =>
        some (Numeral.signedInt negative (Numeral.value digits), tail.dropWhile Char.isDigit)
    else none
  | [] => none

/-- The whole part of a number: a zero alone, or digits that start with another one. -/
def wholePart : List Char → List Char × List Char
  | '0' :: rest => (['0'], rest)
  | cs => (cs.takeWhile Char.isDigit, cs.dropWhile Char.isDigit)

/-- A number behind its sign. -/
def unsigned (negative : Bool) (cs : List Char) : Reading Number :=
  match wholePart cs with
  | ([], _) => .error .malformed
  | (whole, afterWhole) =>
    let (part, afterPart) := fraction afterWhole
    match part, exponent? afterPart with
    | [], none =>
      if Numeral.digitLimit < whole.length then .error (.tooManyDigits whole.length)
      else .ok (.int (Numeral.signedInt negative (Numeral.value whole)), afterPart)
    | part, none =>
      let decimal := Decimal.mk (Numeral.value (whole ++ part)) (-(part.length : Int))
      .ok (.real (decimal.toBinary64 negative), afterPart)
    | part, some (exponent, rest) =>
      let decimal := Decimal.mk (Numeral.value (whole ++ part)) (exponent - part.length)
      .ok (.real (decimal.toBinary64 negative), rest)

/-- A number. -/
def number : List Char → Reading Number
  | 'N' :: 'a' :: 'N' :: rest => .ok (.real .nan, rest)
  | 'I' :: 'n' :: 'f' :: 'i' :: 'n' :: 'i' :: 't' :: 'y' :: rest => .ok (.real (.infinite false), rest)
  | '-' :: 'I' :: 'n' :: 'f' :: 'i' :: 'n' :: 'i' :: 't' :: 'y' :: rest =>
    .ok (.real (.infinite true), rest)
  | '-' :: rest => unsigned true rest
  | cs => unsigned false cs

/-! ## Texts -/

/-- The value of a hexadecimal digit. -/
def hexValue? (c : Char) : Option Nat :=
  if c.isDigit then some (c.toNat - 48)
  else if 'a' ≤ c && c ≤ 'f' then some (c.toNat - 87)
  else if 'A' ≤ c && c ≤ 'F' then some (c.toNat - 55)
  else none

def hexUnit? (a b c d : Char) : Option Nat := do
  return (((← hexValue? a) * 16 + (← hexValue? b)) * 16 + (← hexValue? c)) * 16 + (← hexValue? d)

def unitChar (unit : Nat) : Char :=
  if Text.opensPair unit || Text.closesPair unit then Text.ofSurrogate unit else Char.ofNat unit

/-- The character that a letter behind a backslash stands for. -/
def escape? (c : Char) : Option Char :=
  match c with
  | '"' => some '"'
  | '\\' => some '\\'
  | '/' => some '/'
  | 'b' => some (Char.ofNat 8)
  | 'f' => some (Char.ofNat 12)
  | 'n' => some '\n'
  | 'r' => some '\r'
  | 't' => some '\t'
  | _ => none

/-- A text up to its closing quote, the characters read so far in reverse. -/
def textTail (read : List Char) : List Char → Option (String × List Char)
  | '"' :: rest => some (String.ofList read.reverse, rest)
  | '\\' :: 'u' :: a :: b :: c :: d :: '\\' :: 'u' :: e :: f :: g :: h :: rest =>
    match hexUnit? a b c d, hexUnit? e f g h with
    | some first, some second =>
      if Text.opensPair first && Text.closesPair second then
        textTail (Text.ofPair first second :: read) rest
      else textTail (unitChar first :: read) ('\\' :: 'u' :: e :: f :: g :: h :: rest)
    | _, _ => none
  | '\\' :: 'u' :: a :: b :: c :: d :: rest =>
    match hexUnit? a b c d with
    | some unit => textTail (unitChar unit :: read) rest
    | none => none
  | '\\' :: c :: rest =>
    match escape? c with
    | some char => textTail (char :: read) rest
    | none => none
  | c :: rest => if c.toNat < 32 then none else textTail (c :: read) rest
  | [] => none

/-! ## Values -/

mutual

/-- A value at the front of a text; `fuel` bounds the steps. -/
def value : Nat → List Char → Reading Json
  | 0, _ => .error .malformed
  | fuel + 1, cs =>
    match skip cs with
    | '\x7b' :: rest =>
      match skip rest with
      | '\x7d' :: rest => .ok (.obj [], rest)
      | rest => fields fuel [] rest
    | '[' :: rest =>
      match skip rest with
      | ']' :: rest => .ok (.arr [], rest)
      | rest => items fuel [] rest
    | '"' :: rest => (wellFormed (textTail [] rest)).map fun (s, rest) => (.str s, rest)
    | 'n' :: 'u' :: 'l' :: 'l' :: rest => .ok (.null, rest)
    | 't' :: 'r' :: 'u' :: 'e' :: rest => .ok (.bool true, rest)
    | 'f' :: 'a' :: 'l' :: 's' :: 'e' :: rest => .ok (.bool false, rest)
    | cs => (number cs).map fun (n, rest) => (.num n, rest)

/-- The items of a list up to its closing bracket, those read so far in reverse. -/
def items : Nat → List Json → List Char → Reading Json
  | 0, _, _ => .error .malformed
  | fuel + 1, read, cs =>
    match value fuel cs with
    | .error fault => .error fault
    | .ok (item, rest) =>
      match skip rest with
      | ',' :: rest => items fuel (item :: read) rest
      | ']' :: rest => .ok (.arr (item :: read).reverse, rest)
      | _ => .error .malformed

/-- The fields of an object up to its closing brace. -/
def fields : Nat → Fields → List Char → Reading Json
  | 0, _, _ => .error .malformed
  | fuel + 1, read, cs =>
    match skip cs with
    | '"' :: rest =>
      match textTail [] rest with
      | none => .error .malformed
      | some (name, rest) =>
        match skip rest with
        | ':' :: rest =>
          match value fuel rest with
          | .error fault => .error fault
          | .ok (item, rest) =>
            match skip rest with
            | ',' :: rest => fields fuel (put name item read) rest
            | '\x7d' :: rest => .ok (.obj (put name item read), rest)
            | _ => .error .malformed
        | _ => .error .malformed
    | _ => .error .malformed

end

end Reader

/-- The JSON value that a whole text spells. -/
def read (cs : List Char) : Except ReadFault Json :=
  match Reader.value (2 * cs.length + 2) cs with
  | .ok (value, rest) => if (Reader.skip rest).isEmpty then .ok value else .error .malformed
  | .error fault => .error fault

end TouchGame.Json

import TouchGame.Text.Printable
import TouchGame.Text.Surrogate

/-!
# Quoted text

`quoted` : a text between quotes on one line, as messages and signatures show it. The quotes are
single unless the text holds a single and no double one; the quote, the backslash and whatever has
no printed form are escaped.
-/

namespace TouchGame.Text

def hexPadded (width n : Nat) : List Char :=
  let digits := Nat.toDigits 16 n
  List.replicate (width - digits.length) '0' ++ digits

/-- The number of a character without a printed form, behind a backslash. -/
def numbered (c : Char) : List Char :=
  match surrogate? c with
  | some unit => '\\' :: 'u' :: hexPadded 4 unit
  | none =>
    if c.toNat < 0x100 then '\\' :: 'x' :: hexPadded 2 c.toNat
    else if c.toNat < 0x10000 then '\\' :: 'u' :: hexPadded 4 c.toNat
    else '\\' :: 'U' :: hexPadded 8 c.toNat

/-- A character inside quotes of the given mark. -/
def escaped (mark c : Char) : List Char :=
  if c == mark || c == '\\' then ['\\', c]
  else if c == '\n' then ['\\', 'n']
  else if c == '\r' then ['\\', 'r']
  else if c == '\t' then ['\\', 't']
  else if isPrintable c then [c]
  else numbered c

def quoteMark (s : List Char) : Char :=
  let single := Char.ofNat 39
  if s.contains single && !s.contains '"' then '"' else single

def quoted (s : String) : String :=
  let mark := quoteMark s.toList
  String.ofList (mark :: s.toList.flatMap (escaped mark) ++ [mark])

/-- Texts joined by a separator. -/
def joined (separator : String) : List String → String
  | [] => ""
  | [s] => s
  | s :: rest => s ++ separator ++ joined separator rest

end TouchGame.Text

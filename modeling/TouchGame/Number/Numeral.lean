import TouchGame.Number.Basic
import TouchGame.Text.Blank

/-!
# Numbers read from texts

A plain numeral is an optional sign and digits; that of a double may have a fraction and an
exponent, or is a word for infinity or not-a-number. Settings also take single underscores between
two digits. Documents take more: white space at the ends, zeros in front, a point with zeros behind
it, and underscores at any place inside.

* `Numeral.decimal?`, `Numeral.exact` : doubles and whole numbers spelled plainly.
* `Numeral.real?`, `Numeral.integer` : the same in settings.
* `Numeral.looseReal?`, `Numeral.looseInteger` : the same in documents.
* `Numeral.plainDigits` : a text with the digits of every script in their plain form.
-/

namespace TouchGame

/-- Why a text is no whole number. -/
inductive NumeralFault where
  | unreadable
  | tooLong (digits : Nat)
  deriving DecidableEq, Repr

namespace Numeral

def tooLongMessage (digits : Nat) : String :=
  s!"Exceeds the limit ({digitLimit} digits) for integer string conversion: " ++
    s!"value has {digits} digits; use sys.set_int_max_str_digits() to increase the limit"

/-! ## Plain numerals -/

/-- The value of plain digits. -/
def value (ds : List Char) : Nat :=
  ds.foldl (fun n c => 10 * n + (c.toNat - 48)) 0

def digits (cs : List Char) : List Char × List Char :=
  (cs.takeWhile Char.isDigit, cs.dropWhile Char.isDigit)

/-- An optional sign, and whether it is a minus. -/
def sign : List Char → Bool × List Char
  | '-' :: rest => (true, rest)
  | '+' :: rest => (false, rest)
  | cs => (false, cs)

def signedInt (negative : Bool) (size : Nat) : Int :=
  if negative then -(size : Int) else size

/-- A signed whole number of any length, zeros in front included. -/
def signed? (cs : List Char) : Option Int :=
  let (negative, unsigned) := sign cs
  match digits unsigned with
  | (d :: ds, []) => some (signedInt negative (value (d :: ds)))
  | _ => none

/-- The exponent that ends a decimal; none at all counts as zero. -/
def exponent? : List Char → Option Int
  | [] => some 0
  | c :: rest =>
    if c == 'e' || c == 'E' then signed? rest else none

/-- The fraction behind the whole part of a decimal, and what follows it. -/
def fraction : List Char → List Char × List Char
  | '.' :: rest => digits rest
  | cs => ([], cs)

def lowerWord (cs : List Char) : String :=
  String.ofList (cs.map Char.toLower)

/-- A double spelled plainly. -/
def decimal? (cs : List Char) : Option Binary64 :=
  let (negative, unsigned) := sign cs
  let word := lowerWord unsigned
  if word == "inf" || word == "infinity" then some (.infinite negative)
  else if word == "nan" then some .nan
  else
    let (whole, afterWhole) := digits unsigned
    let (part, afterPart) := fraction afterWhole
    if whole.isEmpty && part.isEmpty then none
    else (exponent? afterPart).map fun e =>
      (Decimal.mk (value (whole ++ part)) (e - part.length)).toBinary64 negative

def isLeading (c : Char) : Bool :=
  '1' ≤ c && c ≤ '9'

/-- A whole number behind its sign: a zero alone, or digits that start with another one. Too many
digits count before anything that may follow them. -/
def exactSize (negative : Bool) : List Char → Except NumeralFault Int
  | [] => .error .unreadable
  | d :: rest =>
    if d == '0' && rest.isEmpty then .ok 0
    else if isLeading d then
      let (ds, tail) := digits (d :: rest)
      if digitLimit < ds.length then .error (.tooLong ds.length)
      else if tail.isEmpty then .ok (signedInt negative (value ds))
      else .error .unreadable
    else .error .unreadable

/-- A whole number spelled plainly: no plus and no needless zeros. -/
def exact : List Char → Except NumeralFault Int
  | '-' :: rest => exactSize true rest
  | cs => exactSize false cs

/-! ## Numerals of settings -/

/-- A text without its underscores, if each stands between two digits; the flag says whether a digit
stands in front of the text. -/
def joined? (afterDigit : Bool) : List Char → Option (List Char)
  | [] => some []
  | ['_'] => none
  | '_' :: d :: rest =>
    if afterDigit && d.isDigit then (joined? true rest).map (d :: ·) else none
  | c :: rest => (joined? c.isDigit rest).map (c :: ·)

def real? (cs : List Char) : Option Binary64 :=
  (joined? false cs).bind decimal?

/-- A whole number in a setting. Too many digits count before anything that may follow them. -/
def integer (cs : List Char) : Except NumeralFault Int :=
  let (negative, unsigned) := sign cs
  let run := unsigned.takeWhile fun c => c.isDigit || c == '_'
  match joined? false run with
  | some (d :: ds) =>
    if digitLimit < (d :: ds).length then .error (.tooLong (d :: ds).length)
    else if run.length = unsigned.length then .ok (signedInt negative (value (d :: ds)))
    else .error .unreadable
  | _ => .error .unreadable

/-! ## Numerals of documents -/

/-- Whether a text has two underscores in a row. -/
def hasWideGap : List Char → Bool
  | '_' :: '_' :: _ => true
  | _ :: rest => hasWideGap rest
  | [] => false

/-- A text without its underscores, if it has some, none of them at an end or behind another. -/
def withoutGaps? (cs : List Char) : Option (List Char) :=
  if cs.contains '_' && cs.head? != some '_' && cs.getLast? != some '_' && !hasWideGap cs then
    some (cs.filter (· != '_'))
  else none

def trimmed (cs : List Char) : List Char :=
  Text.trim Text.isSpace cs

/-- A double in a document: white space at its ends or underscores inside, but not both. -/
def looseReal? (cs : List Char) : Option Binary64 :=
  (decimal? (trimmed cs)).or ((withoutGaps? cs).bind decimal?)

/-- What is left behind zeros and underscores: a number from its first other digit or from a minus,
a fraction from the character in front of its point, of nothing else the last character. -/
def behindZeros? (last : Char) : List Char → Option (List Char)
  | [] => some [last]
  | c :: rest =>
    if c == '0' || c == '_' then behindZeros? c rest
    else if isLeading c || c == '-' then some (c :: rest)
    else if c == '.' then some (last :: c :: rest)
    else none

/-- A number without zeros in front; it has to start with a digit. -/
def withoutZeros? : List Char → Option (List Char)
  | [] => none
  | c :: rest =>
    if c == '0' then behindZeros? c rest
    else if isLeading c then some (c :: rest)
    else none

/-- A number without its fraction, if that is one or more zeros. -/
def withoutFraction (cs : List Char) : List Char :=
  match cs.dropWhile (· != '.') with
  | '.' :: '0' :: zeros => if zeros.all (· == '0') then cs.takeWhile (· != '.') else cs
  | _ => cs

/-- The plain spelling of an unsigned number in a document. -/
def plainSize? (cs : List Char) : Option (List Char) :=
  (withoutZeros? cs).map fun number =>
    let whole := withoutFraction number
    (withoutGaps? whole).getD whole

/-- The plain spelling of a number in a document. -/
def plainSpelling? : List Char → Option (List Char)
  | '-' :: rest => (plainSize? rest).map ('-' :: ·)
  | '+' :: rest => plainSize? rest
  | cs => plainSize? cs

/-- A whole number in a document. Only one that is spelled plainly counts as too long. -/
def looseInteger (cs : List Char) : Except NumeralFault Int :=
  match exact cs with
  | .error .unreadable =>
    match (plainSpelling? (trimmed cs)).map exact with
    | some (.ok n) => .ok n
    | _ => .error .unreadable
  | result => result

/-! ## Digits of other scripts -/

/-- A text with the digits of every script in their plain form. -/
def plainDigits (cs : List Char) : List Char :=
  cs.map fun c => match Text.digitValue? c with
    | some n => Char.ofNat (48 + n)
    | none => c

end Numeral

end TouchGame

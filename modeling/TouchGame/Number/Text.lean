import TouchGame.Number.Basic

/-!
# Numbers as text

* `Number.text` : the plain notation of messages; a double by its shortest digits, positional from
  `0.0001` up to sixteen digits, and always told apart from a whole number.
* `Number.written` : the same, unless a whole number has too many digits.
* `Number.general` : six significant digits, trailing zeros dropped.
* `Number.fixedOne` : one decimal place.
* `Number.signature` : the plain notation, but a double that is whole is written as a whole number.
-/

namespace TouchGame

/-- Where a notation leaves positional writing, and how it marks a double that is whole. -/
structure NumeralStyle where
  positionalBelow : Int
  wholeMark : String

namespace NumeralStyle

/-- Messages and documents: positional below `10 ^ 16`, a whole double ends in `.0`. -/
def plain : NumeralStyle := ⟨16, ".0"⟩

def general : NumeralStyle := ⟨6, ""⟩

/-- The smallest place of a first digit that is still written positionally. -/
def positionalFrom : Int := -4

/-- Digits in front of and behind the decimal point; the first digit stands at place `lead`. -/
def positional (style : NumeralStyle) (digits : List Char) (lead : Int) : String :=
  if lead < 0 then
    "0." ++ String.ofList (List.replicate (-lead - 1).toNat '0' ++ digits)
  else
    let before := lead.toNat + 1
    let front := digits.take before ++ List.replicate (before - digits.length) '0'
    match digits.drop before with
    | [] => String.ofList front ++ style.wholeMark
    | back => String.ofList front ++ "." ++ String.ofList back

/-- A first digit, the others behind a point, and a signed exponent of at least two digits. -/
def scientific (digits : List Char) (lead : Int) : String :=
  let mantissa := match digits with
    | first :: second :: rest => String.ofList (first :: '.' :: second :: rest)
    | short => String.ofList short
  let size := toString lead.natAbs
  let padded := if size.length < 2 then "0" ++ size else size
  mantissa ++ (if lead < 0 then "e-" else "e+") ++ padded

def trimmed (digits : Nat) : List Char :=
  ((Nat.toDigits 10 digits).reverse.dropWhile (· == '0')).reverse

/-- The text of a positive magnitude with these digits, the first at place `lead`. -/
def magnitude (style : NumeralStyle) (digits : Nat) (lead : Int) : String :=
  let shown := trimmed digits
  if positionalFrom ≤ lead ∧ lead < style.positionalBelow then style.positional shown lead
  else scientific shown lead

/-- The text of a double, given how its magnitude is written. -/
def double (style : NumeralStyle) (write : Nat → String) : Binary64 → String
  | .nan => "nan"
  | .infinite negative => if negative then "-inf" else "inf"
  | .finite negative quanta _ =>
    (if negative then "-" else "") ++ (if quanta = 0 then "0" ++ style.wholeMark else write quanta)

end NumeralStyle

namespace Binary64

/-- A double by its shortest digits. -/
def text : Binary64 → String :=
  NumeralStyle.plain.double fun quanta =>
    let d := shortest quanta
    NumeralStyle.plain.magnitude d.digits (d.exponent + digitCount d.digits - 1)

/-- A double by six significant digits. -/
def general : Binary64 → String :=
  NumeralStyle.general.double fun quanta =>
    let lead := leadingPlace quanta
    let digits := digitsAt quanta (lead - 5)
    NumeralStyle.general.magnitude digits (lead - 6 + digitCount digits)

/-- A double with one decimal place. -/
def fixedOne : Binary64 → String
  | .nan => "nan"
  | .infinite negative => if negative then "-inf" else "inf"
  | .finite negative quanta _ =>
    let tenths := digitsAt quanta (-1)
    (if negative then "-" else "") ++ toString (tenths / 10) ++ "." ++ toString (tenths % 10)

end Binary64

namespace Number

/-- The plain notation of a number. -/
def text : Number → String
  | .int n => toString n
  | .real x => x.text

/-- The plain notation of a number that arithmetic gave; a whole number may have too many digits. -/
def written (n : Number) : Except ArithmeticFault String :=
  match n with
  | .int value =>
    if value.natAbs < Nat.pow 10 Numeral.digitLimit then .ok n.text else .error .numeralTooLong
  | .real _ => .ok n.text

def general (n : Number) : Except ArithmeticFault String :=
  return (← n.toReal).general

def generalSigned (n : Number) : Except ArithmeticFault String := do
  let shown ← n.general
  return if shown.startsWith "-" then shown else "+" ++ shown

def fixedOne (n : Number) : Except ArithmeticFault String :=
  return (← n.toReal).fixedOne

/-- The text of a number in a signature: a double that is whole loses its mark. -/
def signature : Number → String
  | .int n => toString n
  | .real x => match x.whole? with
    | some n => toString n
    | none => x.text

end Number

end TouchGame

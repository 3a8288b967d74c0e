import TouchGame.Number.Decimal

/-!
# Numbers of a rule-set

A number is a whole number of any size or a double, and stays what it was written as. Order and
equality compare the exact values of both kinds; arithmetic on two whole numbers is exact, and on
anything else it is that of doubles.

* `Number.lt`, `Number.le`, `Number.eq` : comparisons, all false for a NaN.
* `Number.add`, `sub`, `mul`, `quotient`, `ceil` : arithmetic, with the faults it can have.
* `Number.clamp` : the nearest number between two bounds.
-/

namespace TouchGame

/-- A number: whole, or a double. -/
inductive Number where
  | int (value : Int)
  | real (value : Binary64)
  deriving DecidableEq, Repr

/-- The most digits of a whole number that is read from a text or written as one. -/
def Numeral.digitLimit : Nat := 4300

/-- What arithmetic on numbers, and writing down what it gives, can fail with. -/
inductive ArithmeticFault where
  | integerTooLarge
  | quotientTooLarge
  | ceilingOfInfinity
  | ceilingOfNan
  | numeralTooLong
  deriving DecidableEq, Repr

namespace ArithmeticFault

/-- The wording of an arithmetic fault. -/
def message : ArithmeticFault → String
  | .integerTooLarge => "int too large to convert to float"
  | .quotientTooLarge => "integer division result too large for a float"
  | .ceilingOfInfinity => "cannot convert float infinity to integer"
  | .ceilingOfNan => "cannot convert float NaN to integer"
  | .numeralTooLong =>
    s!"Exceeds the limit ({Numeral.digitLimit} digits) for integer string conversion; " ++
      "use sys.set_int_max_str_digits() to increase the limit"

end ArithmeticFault

namespace Number

/-- Numerals are whole numbers. -/
instance : OfNat Number n := ⟨.int n⟩

def kindWord : Number → String
  | .int _ => "int"
  | .real _ => "float"

/-- The double that a whole number of thousandths stands for. -/
def thousandths (n : Nat) : Number :=
  .real ((Decimal.mk n (-3)).toBinary64 false)

/-! ## Order -/

/-- Where a number lies on the extended line; a NaN lies nowhere. -/
def extent? : Number → Option Extent
  | .int n => some (.point (n * Binary64.unit))
  | .real x => x.extent?

def lt (a b : Number) : Bool :=
  match a.extent?, b.extent? with
  | some p, some q => p.before q
  | _, _ => false

/-- Smaller or equal. -/
def le (a b : Number) : Bool :=
  match a.extent?, b.extent? with
  | some p, some q => !q.before p
  | _, _ => false

def eq (a b : Number) : Bool :=
  match a.extent?, b.extent? with
  | some p, some q => p == q
  | _, _ => false

/-- The larger of two numbers, the first unless the second is strictly larger. -/
def max (a b : Number) : Number :=
  if a.lt b then b else a

/-- The smaller of two numbers, the first unless the second is strictly smaller. -/
def min (a b : Number) : Number :=
  if b.lt a then b else a

/-- The nearest number between two bounds; a NaN becomes the upper one. -/
def clamp (value low high : Number) : Number :=
  max low (min high value)

def within (value low high : Number) : Bool :=
  low.le value && value.le high

/-- Whether a number is finite. -/
def isFinite : Number → Bool
  | .int _ => true
  | .real x => x.isFinite

/-! ## Arithmetic -/

/-- The double nearest to a number. -/
def toReal : Number → Except ArithmeticFault Binary64
  | .int n => match Binary64.ofInt? n with
    | some x => .ok x
    | none => .error .integerTooLarge
  | .real x => .ok x

/-- An operation given on whole numbers and on doubles. -/
def lift (onInts : Int → Int → Int) (onReals : Binary64 → Binary64 → Binary64) :
    Number → Number → Except ArithmeticFault Number
  | .int a, .int b => .ok (.int (onInts a b))
  | a, b => do
    let x ← a.toReal
    let y ← b.toReal
    return .real (onReals x y)

/-- The sum. -/
def add : Number → Number → Except ArithmeticFault Number :=
  lift (· + ·) Binary64.add

def sub : Number → Number → Except ArithmeticFault Number :=
  lift (· - ·) Binary64.sub

def mul : Number → Number → Except ArithmeticFault Number :=
  lift (· * ·) Binary64.mul

def neg : Number → Number
  | .int n => .int (-n)
  | .real x => .real x.neg

def abs : Number → Number
  | .int n => .int n.natAbs
  | .real x => .real x.abs

/-- The quotient, as a double: of two whole numbers the nearest one to the exact quotient. -/
def quotient : Number → Number → Except ArithmeticFault Binary64
  | .int a, .int b =>
    match Binary64.ofRatio (decide (a < 0) != decide (b < 0)) (Binary64.unit * a.natAbs) b.natAbs with
    | .infinite _ => .error .quotientTooLarge
    | x => .ok x
  | a, b => do
    let x ← a.toReal
    let y ← b.toReal
    return x.div y

/-- The least whole number that is not below a double. -/
def ceil (x : Binary64) : Except ArithmeticFault Int :=
  match x with
  | .nan => .error .ceilingOfNan
  | .infinite _ => .error .ceilingOfInfinity
  | .finite .. => .ok (x.ceil?.getD 0)

end Number

end TouchGame

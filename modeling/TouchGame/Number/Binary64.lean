/-!
# Double-precision numbers

Doubles as exact values: a finite one is a sign and a whole number of quanta, one quantum being
`2 ^ -1074`, the smallest positive double. Rounding, order and arithmetic are then statements on
natural numbers and integers.

* `Binary64.Fits` : the magnitudes a double can have (53 significant bits, below the overflow bound).
* `Binary64.ofRatio` : the double nearest to a quotient of quanta, ties to the even neighbour.
* `Binary64.extent?` : the place of a double on the extended line, `none` for a NaN.
* `add`, `mul`, `div`, `neg`, `abs`, `ceil?` : the exact result, rounded once.
-/

namespace TouchGame

/-- The nearest integer to `num / den`, a tie going to the even one. -/
def roundHalfEven (num den : Nat) : Nat :=
  let low := num / den
  let twice := 2 * (num % den)
  if twice < den then low
  else if den < twice then low + 1
  else low + low % 2

/-- A point of the line with both infinities, finite ones in quanta. -/
inductive Extent where
  | bottom
  | point (quanta : Int)
  | top
  deriving DecidableEq, Repr

namespace Extent

/-- Strictly before, on the extended line. -/
def before : Extent → Extent → Bool
  | .bottom, .bottom => false
  | .bottom, _ => true
  | .point a, .point b => decide (a < b)
  | .point _, .top => true
  | .point _, .bottom => false
  | .top, _ => false

end Extent

namespace Binary64

def powTwo (exponent : Nat) : Nat := Nat.pow 2 exponent

def places : Nat := 1074

def unit : Nat := powTwo places

/-- The first magnitude that is too large for a finite double, `2 ^ 1024` in quanta. -/
def overflowBound : Nat := powTwo (places + 1024)

/-- A magnitude that a finite double can have: at most 53 significant bits, below the bound. -/
def Fits (quanta : Nat) : Prop :=
  quanta < overflowBound ∧ quanta % powTwo (quanta.log2 - 52) = 0

/-- Whether a magnitude fits is decided by computing it. -/
instance (quanta : Nat) : Decidable (Fits quanta) :=
  inferInstanceAs (Decidable (_ ∧ _))

theorem powTwo_pos (exponent : Nat) : 0 < powTwo exponent :=
  Nat.two_pow_pos exponent

theorem overflowBound_pos : 0 < overflowBound :=
  powTwo_pos _

theorem fits_zero : Fits 0 :=
  ⟨overflowBound_pos, Nat.zero_mod _⟩

end Binary64

/-- A double: not a number, an infinity, or a sign and a magnitude in quanta. -/
inductive Binary64 where
  | nan
  | infinite (negative : Bool)
  | finite (negative : Bool) (quanta : Nat) (fits : Binary64.Fits quanta)
  deriving DecidableEq, Repr

namespace Binary64

def zero (negative : Bool) : Binary64 :=
  .finite negative 0 fits_zero

/-- The quotient `num / den` rounded to 53 significant bits, and to whole quanta. -/
def roundQuanta (num den : Nat) : Nat :=
  let step := powTwo ((num / den).log2 - 52)
  roundHalfEven num (den * step) * step

/-- The double with these quanta; an infinity where they are too many. -/
def ofQuanta (negative : Bool) (quanta : Nat) : Binary64 :=
  if fits : Fits quanta then .finite negative quanta fits else .infinite negative

def ofRatio (negative : Bool) (num den : Nat) : Binary64 :=
  ofQuanta negative (roundQuanta num den)

/-- The double nearest to an integer, `none` where that is an infinity. -/
def ofInt? (n : Int) : Option Binary64 :=
  match ofRatio (n < 0) (unit * n.natAbs) 1 with
  | .infinite _ => none
  | x => some x

def signed (negative : Bool) (quanta : Nat) : Int :=
  if negative then -(quanta : Int) else quanta

/-- Where a double lies on the extended line; a NaN lies nowhere. -/
def extent? : Binary64 → Option Extent
  | .nan => none
  | .infinite true => some .bottom
  | .infinite false => some .top
  | .finite negative quanta _ => some (.point (signed negative quanta))

/-! ## Arithmetic -/

/-- The same magnitude with the other sign. -/
def neg : Binary64 → Binary64
  | .nan => .nan
  | .infinite negative => .infinite !negative
  | .finite negative quanta fits => .finite (!negative) quanta fits

def abs : Binary64 → Binary64
  | .nan => .nan
  | .infinite _ => .infinite false
  | .finite _ quanta fits => .finite false quanta fits

/-- The rounded sum; an exact zero is negative only as a sum of two negative zeros. -/
def add : Binary64 → Binary64 → Binary64
  | .nan, _ => .nan
  | _, .nan => .nan
  | .infinite a, .infinite b => if a == b then .infinite a else .nan
  | .infinite a, .finite .. => .infinite a
  | .finite .., .infinite b => .infinite b
  | .finite a m _, .finite b n _ =>
    let sum := signed a m + signed b n
    if sum = 0 then zero (a && b) else ofRatio (sum < 0) sum.natAbs 1

def sub (x y : Binary64) : Binary64 :=
  add x y.neg

/-- The rounded product. -/
def mul : Binary64 → Binary64 → Binary64
  | .nan, _ => .nan
  | _, .nan => .nan
  | .infinite a, .infinite b => .infinite (a != b)
  | .infinite a, .finite b n _ => if n = 0 then .nan else .infinite (a != b)
  | .finite a m _, .infinite b => if m = 0 then .nan else .infinite (a != b)
  | .finite a m _, .finite b n _ => ofRatio (a != b) (m * n) unit

/-- The rounded quotient. -/
def div : Binary64 → Binary64 → Binary64
  | .nan, _ => .nan
  | _, .nan => .nan
  | .infinite _, .infinite _ => .nan
  | .infinite a, .finite b .. => .infinite (a != b)
  | .finite a .., .infinite b => zero (a != b)
  | .finite a m _, .finite b n _ =>
    if n = 0 then (if m = 0 then .nan else .infinite (a != b))
    else ofRatio (a != b) (unit * m) n

def ceil? : Binary64 → Option Int
  | .finite negative quanta _ => some (-((-signed negative quanta).fdiv unit))
  | _ => none

/-- The value of a finite double that is a whole number. -/
def whole? : Binary64 → Option Int
  | .finite negative quanta _ =>
    if quanta % unit = 0 then some (signed negative (quanta / unit)) else none
  | _ => none

/-- Whether a double is finite. -/
def isFinite : Binary64 → Bool
  | .finite .. => true
  | _ => false

end Binary64

end TouchGame

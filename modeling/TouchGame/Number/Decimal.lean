import TouchGame.Number.Binary64

/-!
# Decimal notation of doubles

* `Decimal.toBinary64` : the double nearest to a decimal.
* `Binary64.shortest` : the fewest digits that read back as a finite double, the nearest of those.
* `Binary64.digitsAt` : a finite double rounded to a decimal place, ties of its exact value to even.
* `Binary64.roundTo` : the double nearest to that rounded decimal.
-/

namespace TouchGame

/-- The decimal `digits * 10 ^ exponent`. -/
structure Decimal where
  digits : Nat
  exponent : Int
  deriving DecidableEq, Repr

def digitCount (n : Nat) : Nat :=
  (Nat.toDigits 10 n).length

namespace Decimal

/-- A decimal with a unit above this place is beyond every finite double, and one that stays below
the opposite place is nearer to zero than to any other double. -/
def farPlace : Nat := 400

/-- The double nearest to a decimal. -/
def toBinary64 (negative : Bool) (d : Decimal) : Binary64 :=
  if d.digits = 0 then .zero negative
  else if d.exponent > farPlace then .infinite negative
  else if d.exponent + digitCount d.digits < -farPlace then .zero negative
  else match d.exponent with
    | .ofNat e => .ofRatio negative (d.digits * Nat.pow 10 e * Binary64.unit) 1
    | .negSucc e => .ofRatio negative (d.digits * Binary64.unit) (Nat.pow 10 (e + 1))

end Decimal

namespace Binary64

/-- Numerator and denominator of a magnitude counted in units of `10 ^ place`. -/
def countAt (quanta : Nat) : Int → Nat × Nat
  | .ofNat e => (quanta, unit * Nat.pow 10 e)
  | .negSucc e => (quanta * Nat.pow 10 (e + 1), unit)

/-- A magnitude rounded to a decimal place, in units of that place. -/
def digitsAt (quanta : Nat) (place : Int) : Nat :=
  let (num, den) := countAt quanta place
  roundHalfEven num den

/-- The place of the first decimal digit of a positive magnitude: no double lies below
`10 ^ -330`, so the digits of its multiple by `10 ^ 330` tell the place. -/
def leadingPlace (quanta : Nat) : Int :=
  (digitCount (quanta * Nat.pow 10 330 / unit) : Int) - 331

def readsBack (quanta digits : Nat) (place : Int) : Bool :=
  (Decimal.mk digits place).toBinary64 false == ofQuanta false quanta

/-- The multiple of `10 ^ place` that reads back as a magnitude, the nearer one if both its
neighbours do. -/
def reading? (quanta : Nat) (place : Int) : Option Nat :=
  let (num, den) := countAt quanta place
  let low := num / den
  match readsBack quanta low place, readsBack quanta (low + 1) place with
  | true, true => some (roundHalfEven num den)
  | true, false => some low
  | false, true => some (low + 1)
  | false, false => none

/-- The decimal with the fewest digits that reads back as a positive magnitude; seventeen digits
always suffice, and the exact value stands behind them. -/
def shortest (quanta : Nat) : Decimal :=
  let lead := leadingPlace quanta
  let coarse := (List.range 17).findSome? fun (i : Nat) =>
    (reading? quanta (lead - i)).map (Decimal.mk · (lead - i))
  coarse.getD ⟨quanta * Nat.pow 5 places, -places⟩

/-- A double rounded to decimal places: the double nearest to the rounded decimal. -/
def roundTo (decimals : Nat) : Binary64 → Binary64
  | .finite negative quanta _ =>
    (Decimal.mk (digitsAt quanta (-(decimals : Int))) (-(decimals : Int))).toBinary64 negative
  | x => x

end Binary64

end TouchGame

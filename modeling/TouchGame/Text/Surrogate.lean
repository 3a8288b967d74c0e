/-!
# Surrogates

Escaped texts spell characters beyond the first plane as pairs of surrogates. A surrogate that stands
alone is no character; it is kept as a code point that no script uses, so that a text that holds one
is written again as it was read.

* `ofSurrogate`, `surrogate?` : from a surrogate that stands alone to the character kept for it, and
  back.
* `isWellFormed` : whether a text holds no such character.
-/

namespace TouchGame.Text

def opensPair (unit : Nat) : Bool :=
  0xd800 ≤ unit && unit < 0xdc00

def closesPair (unit : Nat) : Bool :=
  0xdc00 ≤ unit && unit < 0xe000

def ofPair (first second : Nat) : Char :=
  Char.ofNat (0x10000 + (first - 0xd800) * 0x400 + (second - 0xdc00))

/-- The distance between surrogates and the code points that are kept for them. -/
def surrogateShift : Nat := 0xd0000

def ofSurrogate (unit : Nat) : Char :=
  Char.ofNat (surrogateShift + unit)

def surrogate? (c : Char) : Option Nat :=
  let unit := c.toNat - surrogateShift
  if surrogateShift ≤ c.toNat && (opensPair unit || closesPair unit) then some unit else none

def isWellFormed (s : String) : Bool :=
  s.toList.all fun c => (surrogate? c).isNone

end TouchGame.Text

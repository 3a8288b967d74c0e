import TouchGame.Number.Basic

/-!
# Comparisons

How a counter condition compares a counter with its threshold.
-/

namespace TouchGame

/-- The supported comparisons. -/
inductive Comparison where
  | equals
  | greaterOrEqual
  | greater
  | less
  | lessOrEqual
  deriving DecidableEq, Repr

namespace Comparison

/-- The comparison of a condition that names none. -/
def defaultName : String := "greaterOrEqual"

/-- The comparison with a name. -/
def ofName? : String → Option Comparison
  | "equals" => some .equals
  | "greaterOrEqual" => some .greaterOrEqual
  | "greater" => some .greater
  | "less" => some .less
  | "lessOrEqual" => some .lessOrEqual
  | _ => none

/-- Whether a value compares so with a threshold. -/
def holds : Comparison → Number → Number → Bool
  | .equals, value, threshold => value.eq threshold
  | .greaterOrEqual, value, threshold => threshold.le value
  | .greater, value, threshold => threshold.lt value
  | .less, value, threshold => value.lt threshold
  | .lessOrEqual, value, threshold => value.le threshold

end Comparison

end TouchGame

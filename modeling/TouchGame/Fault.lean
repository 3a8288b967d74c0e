import TouchGame.Json.Basic
import TouchGame.Number.Numeral

/-!
# Faults

What makes an operation on a loaded rule-set fail instead of answer.

* `Fault.message` : the wording of a fault.
* `Json.typeFault?` : a written type that cannot be looked up.
-/

namespace TouchGame

/-- Why an operation fails. -/
inductive Fault where
  | arithmetic (cause : ArithmeticFault)
  | tooManyDigits (digits : Nat)
  | listAsType
  | objectAsType
  | unlistedCode (name : String)
  | codeWithoutEntry
  | indexOutOfRange
  /-- A number has no such field, since it is no record. -/
  | fieldOfNumber (field : String) (number : Number)
  /-- A component of a number is not put apart from the number. -/
  | componentOfNumber (field : String) (number : Number)
  /-- A record keeps this field to itself. -/
  | fieldOfRecord (field noun : String)
  /-- A number and a text have no order. -/
  | unordered (number : Number)
  | tooDeep
  | repeatedValue
  deriving DecidableEq, Repr

namespace Fault

/-- The wording of a fault. -/
def message : Fault → String
  | .arithmetic cause => cause.message
  | .tooManyDigits digits => Numeral.tooLongMessage digits
  | .listAsType => "unhashable type: 'list'"
  | .objectAsType => "unhashable type: 'dict'"
  | .unlistedCode name => Text.quoted name ++ " is not a valid ErrorCode"
  | .codeWithoutEntry => "'str' object has no attribute 'value'"
  | .indexOutOfRange => "list index out of range"
  | .fieldOfNumber field number => s!"'{number.kindWord}' object has no attribute '{field}'"
  | .componentOfNumber field number =>
    s!"attribute '{field}' of '{number.kindWord}' objects is not writable"
  | .fieldOfRecord field noun => s!"property '{field}' of '{noun}' object has no setter"
  | .unordered number =>
    s!"'<' not supported between instances of '{number.kindWord}' and 'str'"
  | .tooDeep => "Maximum serialization depth exceeded"
  | .repeatedValue => "Circular reference detected (id repeated)"

end Fault

/-- Arithmetic inside an operation. -/
def arithmetic (result : Except ArithmeticFault α) : Except Fault α :=
  result.mapError .arithmetic

/-- A written type can be looked up unless it is a list or an object. -/
def Json.typeFault? : Json → Option Fault
  | .arr _ => some .listAsType
  | .obj _ => some .objectAsType
  | _ => none

end TouchGame

import Patchbay.DataType
import Patchbay.Number.Text

/-! Literals: the values that pins carry, the types they fit, and the literal that an unconnected
pin of a type starts with. -/

namespace Patchbay

/-- A value bound to a pin. -/
inductive Literal where
  | boolean (value : Bool)
  | number (value : Number)
  | string (value : String)
deriving DecidableEq

namespace Literal

/-- Whether a pin of the given type may carry the literal. -/
def fits : Literal → DataType → Bool
  | number _, .number => true
  | boolean _, .boolean => true
  | boolean _, .pulse => true
  | string _, .string => true
  | _, _ => false

/-- A literal as messages show it. -/
def display : Literal → String
  | boolean value => if value then "true" else "false"
  | number value => value.display
  | string value => Text.quoted value

/-- Equality that compares numbers as arithmetic does. -/
def agrees : Literal → Literal → Bool
  | number x, number y => x.agrees y
  | x, y => x = y

end Literal

/-- The literal of an unconnected pin; custom types have none. -/
def DataType.default? : DataType → Option Literal
  | number => some (.number .zero)
  | boolean => some (.boolean false)
  | pulse => some (.boolean false)
  | string => some (.string "")
  | custom _ _ => none

theorem DataType.fits_default? {type : DataType} {value : Literal}
    (h : type.default? = some value) : value.fits type = true := by
  cases type <;> simp_all [DataType.default?] <;> subst h <;> rfl

end Patchbay

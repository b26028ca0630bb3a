import Patchbay.Literal
import Patchbay.Validation

/-! Pins: the typed inputs and outputs in the interface of a patch. -/

namespace Patchbay

/-- A typed slot of a patch. `order` is its place among the pins of its direction. -/
structure Pin where
  key : PinKey
  type : DataType
  direction : Direction
  order : UInt32 := 0
  injected : Bool := false
  value : Option Literal := none
  label : Option String := none
deriving DecidableEq

namespace Pin

/-- The pin with the given key and type name; the key is checked first. -/
def parse (key type : String) (direction : Direction) : Except ValidationError Pin := do
  let key ← Identifier.parse key
  let type ← DataType.parse type
  return { key, type, direction }

def isInput (pin : Pin) : Bool := pin.direction = .input

def isOutput (pin : Pin) : Bool := pin.direction = .output

/-- Gives the pin a default literal, which has to fit its type. -/
def setValue (pin : Pin) (value : Literal) : Except ValidationError Pin :=
  if value.fits pin.type then .ok { pin with value := some value }
  else .error (.valueTypeMismatch pin.key pin.type.text)

/-- Equality that compares numbers as arithmetic does. -/
def agrees (a b : Pin) : Bool :=
  a.key = b.key && a.type = b.type && a.direction = b.direction && a.order = b.order &&
    a.injected = b.injected && a.label = b.label &&
    match a.value, b.value with
    | some x, some y => x.agrees y
    | none, none => true
    | _, _ => false

end Pin

end Patchbay

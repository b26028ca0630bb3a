import Patchbay.Patch.Basic

/-! The interface of a patch: its custom pins together with the pins that its terminal nodes define,
which are ordered from left to right on the canvas. -/

namespace Patchbay

/-- Inputs come before outputs. -/
def Direction.rank : Direction → Nat
  | input => 0
  | output => 1

/-- Whether one pin is listed no later than another: inputs first, then by order, then by key. -/
def Pin.listedBefore (a b : Pin) : Bool :=
  ((compare a.direction.rank b.direction.rank).then
    ((compare a.order b.order).then (compare a.key.text b.key.text))).isLE

/-- Whether one node lies no further right than another; identifiers decide between equals. -/
def Node.leftOf (a b : Node) : Bool :=
  ((compare a.position.x.rank b.position.x.rank).then (compare a.id.text b.id.text)).isLE

namespace Patch

/-- The terminal nodes of one direction with the types of their pins, from left to right. -/
def terminals (patch : Patch) (direction : Direction) : List (DataType × Node) :=
  (patch.nodes.values.filterMap fun node => match node.terminal? with
    | some (d, type) => if d = direction then some (type, node) else none
    | none => none).mergeSort fun a b => a.2.leftOf b.2

/-- The pins that the terminal nodes of one direction define, numbered from left to right. -/
def terminalPins (patch : Patch) (direction : Direction) : List Pin :=
  (patch.terminals direction).zipIdx.map fun ((type, node), i) =>
    { key := node.id.toPinKey, type, direction, order := UInt32.ofNat i, label := node.label }

/-- All pins of the patch, inputs first, each direction by order and then by key. -/
def interface (patch : Patch) : List Pin :=
  (patch.pins.values ++ patch.terminalPins .input ++ patch.terminalPins .output).mergeSort
    Pin.listedBefore

/-- The inputs among the pins. -/
def inputs (patch : Patch) : List Pin := patch.interface.filter Pin.isInput

/-- The outputs among the pins. -/
def outputs (patch : Patch) : List Pin := patch.interface.filter Pin.isOutput

/-- The pin with the given key. -/
def pin? (patch : Patch) (key : PinKey) : Option Pin := patch.interface.find? (·.key = key)

end Patch

end Patchbay

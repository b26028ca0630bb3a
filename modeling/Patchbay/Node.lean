import Patchbay.Literal
import Patchbay.Identifier

/-! Nodes: instances of a patch inside another patch, with a place on the canvas and the literals
bound to their pins. -/

namespace Patchbay

/-- Coordinates on the canvas. -/
structure Position where
  x : Number
  y : Number
deriving DecidableEq

def Position.origin : Position := ⟨.zero, .zero⟩

/-- Equality that compares coordinates as arithmetic does. -/
def Position.agrees (a b : Position) : Bool := a.x.agrees b.x && a.y.agrees b.y

/-- An instance of the patch at `type`. A pin with a bound literal acts as a constant and takes no
link. -/
structure Node where
  id : NodeId
  type : PatchPath
  position : Position := .origin
  bound : OrderedMap PinKey Literal := .empty
  label : Option String := none
deriving DecidableEq

namespace Node

/-- The direction and type of the pin that the node defines on its patch, if it is a terminal. -/
def terminal? (node : Node) : Option (Direction × DataType) := node.type.terminal?

/-- Whether the node stands for an input or output of its patch. -/
def isTerminal (node : Node) : Bool := node.terminal?.isSome

/-- Binds a literal to a pin, in place of any literal there. -/
def bind (node : Node) (pin : PinKey) (value : Literal) : Node :=
  { node with bound := node.bound.insert pin value }

/-- Drops the literal of a pin. -/
def unbind (node : Node) (pin : PinKey) : Node :=
  { node with bound := node.bound.erase pin }

/-- Makes a pin bound or not: a bound pin keeps its literal, and `fallback` serves where there is
none. -/
def setInjected (node : Node) (pin : PinKey) (injected : Bool) (fallback : Literal) : Node :=
  if injected then if node.bound.contains pin then node else node.bind pin fallback
  else node.unbind pin

/-- Whether a pin has a bound literal. -/
def isBound (node : Node) (pin : PinKey) : Bool := node.bound.contains pin

/-- Equality that compares numbers as arithmetic does. -/
def agrees (a b : Node) : Bool :=
  a.id = b.id && a.type = b.type && a.position.agrees b.position &&
    a.bound.agreesBy Literal.agrees b.bound && a.label = b.label

end Node

end Patchbay

import Patchbay.Identifier

/-! Links: the edges of a patch, from an output pin to an input pin. -/

namespace Patchbay

/-- A pin of a node, as one end of a link. -/
structure Endpoint where
  node : NodeId
  pin : PinKey
deriving DecidableEq

namespace Endpoint

/-- Endpoints are shown as node and pin with a colon between them. -/
def display (e : Endpoint) : String := e.node.text ++ ":" ++ e.pin.text

/-- Endpoints are ordered by node and then by pin. -/
def order (a b : Endpoint) : Ordering :=
  (compare a.node.text b.node.text).then (compare a.pin.text b.pin.text)

end Endpoint

/-- An edge along which values flow from `output` to `input`. -/
structure Link where
  id : LinkId
  input : Endpoint
  output : Endpoint
deriving DecidableEq

/-- Whether either end is a pin of the node. -/
def Link.touches (link : Link) (node : NodeId) : Bool :=
  link.input.node = node || link.output.node = node

end Patchbay

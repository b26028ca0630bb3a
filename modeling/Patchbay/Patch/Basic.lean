import Patchbay.Error
import Patchbay.Link
import Patchbay.Node
import Patchbay.Pin

/-! Patches: graphs of nodes and links with pins of their own. Every change gives a new patch or an
error, and keeps links attached, inputs bound at most once and pin keys unique. -/

namespace Patchbay

/-- A reusable graph of nodes. Whether linked pins exist on the nodes' types is a question for the
project that holds the patch. -/
structure Patch where
  path : PatchPath
  label : Option String := none
  nodes : OrderedMap NodeId Node := .empty
  links : OrderedMap LinkId Link := .empty
  pins : OrderedMap PinKey Pin := .empty
  impls : OrderedMap String String := .empty
deriving DecidableEq

namespace Patch

/-- Attaches the source of an implementation for a target. -/
def addImpl (patch : Patch) (target source : String) : Patch :=
  { patch with impls := patch.impls.insert target source }

/-! ### Queries -/

/-- The node with the given identifier, or the error that names it and the patch. -/
def requireNode (patch : Patch) (id : NodeId) : Except LookupError Node :=
  match patch.nodes.get? id with
  | some node => .ok node
  | none => .error (.nodeNotFound patch.path id)

/-- The links that end at a node. -/
def linksTo (patch : Patch) (node : NodeId) : List Link :=
  patch.links.values.filter (·.input.node = node)

/-- The links that start at a node. -/
def linksFrom (patch : Patch) (node : NodeId) : List Link :=
  patch.links.values.filter (·.output.node = node)

/-- Whether an input pin receives a link. -/
def isLinked (patch : Patch) (input : Endpoint) : Bool :=
  patch.links.values.any (·.input = input)

/-- The keys of a node's input pins that receive a link, in order and each once. -/
def linkedInputs (patch : Patch) (node : NodeId) : List PinKey :=
  (OrderedMap.ofList ((patch.linksTo node).map fun link => (link.input.pin, ()))).keys

/-- Whether a pin of a node has a bound literal. -/
def isBound (patch : Patch) (pin : Endpoint) : Bool :=
  (patch.nodes.get? pin.node).any (·.isBound pin.pin)

/-- Whether a pin key is the identifier of a terminal node. -/
def isTerminalKey (patch : Patch) (key : PinKey) : Bool :=
  (patch.nodes.get? key.toNodeId).any Node.isTerminal

/-! ### Changes -/

/-- Stores a node under its identifier, in place of any node there. A terminal may not take the key
of a custom pin, and a linked input may not be bound. -/
def insertNode (patch : Patch) (node : Node) : Except StructuralError Patch :=
  if node.isTerminal && patch.pins.contains node.id.toPinKey then
    .error (.duplicatePinKey node.id.toPinKey)
  else match node.bound.keys.find? fun key => patch.isLinked ⟨node.id, key⟩ with
    | some key => .error (.duplicateInputBinding node.id key)
    | none => .ok { patch with nodes := patch.nodes.insert node.id node }

/-- Drops a node and every link that touches it. -/
def eraseNode (patch : Patch) (id : NodeId) : Patch :=
  if patch.nodes.contains id then
    { patch with
      nodes := patch.nodes.erase id
      links := patch.links.filter fun _ link => !link.touches id }
  else patch

/-- Stores a link under its identifier, in place of any link there. Both nodes have to be present,
and the input may have neither another link nor a bound literal. -/
def insertLink (patch : Patch) (link : Link) : Except StructuralError Patch :=
  match [link.input, link.output].find? fun e => !patch.nodes.contains e.node with
  | some e => .error (.danglingLinkEndpoint link.id e.node)
  | none =>
    if (patch.links.values.any fun other => other.id ≠ link.id && other.input = link.input) ||
        patch.isBound link.input then
      .error (.duplicateInputBinding link.input.node link.input.pin)
    else .ok { patch with links := patch.links.insert link.id link }

/-- Drops a link. -/
def eraseLink (patch : Patch) (id : LinkId) : Patch :=
  { patch with links := patch.links.erase id }

/-- Adds a custom pin, whose key no custom pin and no terminal may have yet. -/
def insertPin (patch : Patch) (pin : Pin) : Except StructuralError Patch :=
  if patch.pins.contains pin.key || patch.isTerminalKey pin.key then
    .error (.duplicatePinKey pin.key)
  else .ok { patch with pins := patch.pins.insert pin.key pin }

/-- Drops a custom pin. -/
def erasePin (patch : Patch) (key : PinKey) : Patch :=
  { patch with pins := patch.pins.erase key }

/-- Equality that compares numbers as arithmetic does. -/
def agrees (a b : Patch) : Bool :=
  a.path = b.path && a.label = b.label && a.nodes.agreesBy Node.agrees b.nodes &&
    a.links = b.links && a.pins.agreesBy Pin.agrees b.pins && a.impls = b.impls

end Patch

end Patchbay

import Patchbay.OrderedMap
import Patchbay.Text.Blank
import Patchbay.Digest.Uuid

/-! Identifiers of nodes and links and keys of pins: texts that are not blank, kept apart by kind.
-/

namespace Patchbay

/-- What an identifier names. -/
inductive Identifier.Kind where
  | node
  | link
  | pin
deriving DecidableEq

/-- A text that is not blank, as the name of one kind of thing. -/
structure Identifier (kind : Identifier.Kind) where
  text : String
  visible : Text.isBlank text = false
deriving DecidableEq

abbrev NodeId := Identifier .node

abbrev LinkId := Identifier .link

abbrev PinKey := Identifier .pin

namespace Identifier

variable {kind : Kind}

instance : TextKey (Identifier kind) :=
  ⟨Identifier.text, fun {a b} h => by cases a; cases b; simpa using h⟩

/-- The identifier with the given text, unless that is blank. -/
def ofText? (s : String) : Option (Identifier kind) :=
  if h : Text.isBlank s = false then some ⟨s, h⟩ else none

/-- The written form of a universally unique identifier. -/
def ofUuid (u : Digest.Uuid) : Identifier kind :=
  ⟨u.toText, Text.isBlank_eq_false u.hyphen_mem_toText (by decide)⟩

/-- A fresh identifier drawn from a generator. -/
def random (gen : StdGen) : Identifier kind × StdGen :=
  let (u, gen) := Digest.Uuid.random gen
  (ofUuid u, gen)

end Identifier

/-- The node identifier that belongs to a seed. -/
def NodeId.derived (seed : String) : NodeId := .ofUuid (.derived .objects seed)

/-- The link identifier that belongs to a seed. -/
def LinkId.derived (seed : String) : LinkId := .ofUuid (.derived .locators seed)

/-- The pin that a terminal node defines has the node's own text as its key. -/
def NodeId.toPinKey (id : NodeId) : PinKey := ⟨id.text, id.visible⟩

/-- The node identifier with the text of a pin key. -/
def PinKey.toNodeId (key : PinKey) : NodeId := ⟨key.text, key.visible⟩

end Patchbay

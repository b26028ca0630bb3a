import Patchbay.Document.Scalars
import Patchbay.Link
import Patchbay.Pin

/-! The document form of nodes, links and pins. -/

namespace Patchbay

open Json

def Node.toJson (node : Node) : Json :=
  Json.present [
    ("id", some node.id.toJson),
    ("type", some node.type.toJson),
    ("position", some node.position.toJson),
    ("boundValues", some (Json.ofMap Literal.toJson node.bound)),
    ("label", node.label.map .string)]

def Node.record : Record Node :=
  Node.mk <$> Record.field "id" Identifier.decoder
    <*> Record.field "type" PatchPath.decoder
    <*> Record.field "position" Position.decoder (some .origin)
    <*> Record.field "boundValues"
      (Decoder.map (checkedBy Identifier.parse) Literal.decoder) (some .empty)
    <*> Record.optional "label" Decoder.string

def Node.decoder : Decoder Node := record.decoder

def Endpoint.toJson (e : Endpoint) : Json :=
  .object [("nodeId", e.node.toJson), ("pinKey", e.pin.toJson)]

def Endpoint.record : Record Endpoint :=
  Endpoint.mk <$> Record.field "nodeId" Identifier.decoder
    <*> Record.field "pinKey" Identifier.decoder

def Endpoint.decoder : Decoder Endpoint := record.decoder

def Link.toJson (link : Link) : Json :=
  .object [("id", link.id.toJson), ("input", link.input.toJson), ("output", link.output.toJson)]

def Link.record : Record Link :=
  Link.mk <$> Record.field "id" Identifier.decoder
    <*> Record.field "input" Endpoint.decoder
    <*> Record.field "output" Endpoint.decoder

def Link.decoder : Decoder Link := record.decoder

def Pin.toJson (pin : Pin) : Json :=
  Json.present [
    ("key", some pin.key.toJson),
    ("type", some pin.type.toJson),
    ("direction", some pin.direction.toJson),
    ("order", some (.ofNat pin.order.toNat)),
    ("injected", some (.boolean pin.injected)),
    ("value", pin.value.map Literal.toJson),
    ("label", pin.label.map .string)]

/-- The default value of a pin in a document need not fit its type. -/
def Pin.record : Record Pin :=
  Pin.mk <$> Record.field "key" Identifier.decoder
    <*> Record.field "type" DataType.decoder
    <*> Record.field "direction" Direction.decoder
    <*> Record.field "order" Decoder.uint32 (some 0)
    <*> Record.field "injected" Decoder.boolean (some false)
    <*> Record.optional "value" Literal.decoder
    <*> Record.optional "label" Decoder.string

def Pin.decoder : Decoder Pin := record.decoder

end Patchbay

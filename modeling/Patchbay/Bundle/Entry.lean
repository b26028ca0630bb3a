import Patchbay.Bundle.Merge
import Patchbay.Document.Scalars

/-! The entries of bundles: patches with numbered nodes and links, whose values sit on pins that are
marked as injected. -/

namespace Patchbay.Bundle

open Json

/-- The identifier that a value spells: a text, or a number as documents write it. -/
def identifierText? : Json → Option String
  | .string s => some s
  | .number n => some n.text
  | _ => none

def identifierDecoder : Decoder String := fun origin source => do
  let value ← Decoder.json origin source
  match identifierText? value with
  | some s => .ok s
  | none => .error (.refused ("expected id, found " ++ value.compact))

/-- What a node says about one of its pins. -/
structure Injection where
  injected : Bool := false
  value : Option Literal := none

def Injection.record : Record Injection :=
  Injection.mk <$> Record.field "injected" Decoder.boolean (some false)
    <*> Record.optional "value" Literal.decoder

/-- A node: the identifier of its type, its place, and what it says about its pins. -/
structure Instance where
  type : String
  position : Position := .origin
  pins : OrderedMap String Injection := .empty

def Instance.record : Record Instance :=
  Instance.mk <$> Record.field "typeId" identifierDecoder
    <*> Record.field "position" Position.decoder (some .origin)
    <*> Record.field "pins" (Decoder.map .ok Injection.record.decoder) (some .empty)

/-- A pin of an entry. One that names a node stems from that node, which is a terminal. -/
structure Slot where
  key : Option String := none
  type : Option String := none
  direction : Direction
  index : UInt32 := 0
  label : Option String := none
  node : Option Json := none

def Slot.record : Record Slot :=
  Slot.mk <$> Record.optional "key" Decoder.string
    <*> Record.optional "type" Decoder.string
    <*> Record.field "direction" Direction.decoder
    <*> Record.field "index" Decoder.uint32 (some 0)
    <*> Record.optional "label" Decoder.string
    <*> Record.optional "nodeId" Decoder.json

/-- One end of a link. -/
structure WireEnd where
  node : String
  pin : String

def WireEnd.record : Record WireEnd :=
  WireEnd.mk <$> Record.field "nodeId" identifierDecoder
    <*> Record.field "pinKey" identifierDecoder

/-- A link: the input end comes first, the output end second. -/
structure Wire where
  ends : List WireEnd

def Wire.record : Record Wire := Wire.mk <$> Record.field "pins" WireEnd.record.decoder.list

/-- A patch or node type. -/
structure Entry where
  label : Option String := none
  nodes : OrderedMap String Instance := .empty
  links : OrderedMap String Wire := .empty
  pins : OrderedMap String Slot := .empty
  impls : OrderedMap String String := .empty

namespace Entry

def record : Record Entry :=
  Entry.mk <$> Record.optional "label" Decoder.string
    <*> Record.field "nodes" (Decoder.map .ok Instance.record.decoder) (some .empty)
    <*> Record.field "links" (Decoder.map .ok Wire.record.decoder) (some .empty)
    <*> Record.field "pins" (Decoder.map .ok Slot.record.decoder) (some .empty)
    <*> Record.field "impl" (Decoder.map .ok Decoder.string) (some .empty)

/-- The entry with the given fields. -/
def ofFields (fields : Fields) : Except DecodeError Entry :=
  decodeValue record.decoder (.object fields.toList)

end Entry

end Patchbay.Bundle

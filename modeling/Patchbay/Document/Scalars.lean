import Patchbay.Json.Decode
import Patchbay.Node
import Patchbay.Validation

/-! The document form of identifiers, paths, types, directions, literals and positions. -/

namespace Patchbay

open Json

/-- A reader of texts that reports refused ones by message. -/
def checkedBy {α : Type} (parse : String → Except ValidationError α) (s : String) :
    Except String α := (parse s).mapError ValidationError.message

def Identifier.toJson {kind : Kind} (id : Identifier kind) : Json := .string id.text

def Identifier.decoder {kind : Kind} : Decoder (Identifier kind) :=
  Decoder.string.refine (checkedBy Identifier.parse)

def PatchPath.toJson (path : PatchPath) : Json := .string path.text

def PatchPath.decoder : Decoder PatchPath := Decoder.string.refine (checkedBy PatchPath.parse)

def DataType.toJson (type : DataType) : Json := .string type.text

def DataType.decoder : Decoder DataType := Decoder.string.refine (checkedBy DataType.parse)

def Direction.toJson (direction : Direction) : Json := .string direction.text

/-- The direction with a given name. -/
def Direction.variant (name : String) : Except DecodeError Direction :=
  match ofText? name with
  | some direction => .ok direction
  | none => .error .unknownVariant

/-- A direction is written as its name, or as an object with `null` under its name. Text shows what
is wrong member by member; a value is first seen to have a single member. -/
def Direction.decoder : Decoder Direction
  | _, .string (some name) => variant name
  | .text room, .object members => do
    let _ ← Origin.enter (.text room)
    match members with
    | (.string (some name), value) :: rest => do
      let direction ← variant name
      match value, rest with
      | .null, [] => return direction
      | .null, _ => .error .malformed
      | value, _ => .error value.mismatch
    | _ => .error .malformed
  | _, .object [(.string (some name), value)] => do
    let direction ← variant name
    match value with
    | .null => return direction
    | value => .error value.mismatch
  | _, .object _ => .error .outOfRange
  | .text _, _ => .error .malformed
  | _, source => .error source.mismatch

/-- A literal is a bare scalar. -/
def Literal.toJson : Literal → Json
  | boolean value => .boolean value
  | number value => .ofNumber value
  | string value => .string value

/-- Anything but a scalar is read to its end before it is refused. -/
def Literal.decoder : Decoder Literal
  | _, .boolean value => .ok (boolean value)
  | _, .number (some value) => .ok (number value.toNumber)
  | _, .string (some value) => .ok (string value)
  | origin, source => do
    let _ ← Decoder.json origin source
    .error .noVariant

def Position.toJson (position : Position) : Json :=
  .object [("x", .ofNumber position.x), ("y", .ofNumber position.y)]

def Position.record : Record Position :=
  Position.mk <$> Record.field "x" Decoder.number <*> Record.field "y" Decoder.number

def Position.decoder : Decoder Position := record.decoder

/-- An object of the given members without those that are absent. -/
def Json.present (members : List (String × Option Json)) : Json :=
  .object (members.filterMap fun (name, value?) => value?.map (name, ·))

/-- A map as an object. -/
def Json.ofMap {κ α : Type} [TextKey κ] (f : α → Json) (m : OrderedMap κ α) : Json :=
  .object (m.toList.map fun (key, value) => (text key, f value))

end Patchbay

import Patchbay.DataType
import Patchbay.Identifier

/-! Errors of arguments that are malformed on their own, and the readers of identifiers, paths and
types that report them. -/

namespace Patchbay

/-- An argument that is malformed whatever it is used with. -/
inductive ValidationError where
  | invalidIdentifier (kind : Identifier.Kind) (text : String)
  | invalidPinType (text : String)
  | invalidPatchPath (text reason : String)
  | valueTypeMismatch (pin : PinKey) (expected : String)
  | keyMismatch (key embedded : String)
deriving DecidableEq

/-- What messages call an identifier of a kind. -/
def Identifier.Kind.noun : Identifier.Kind → String
  | node => "node id"
  | link => "link id"
  | pin => "pin key"

def ValidationError.message : ValidationError → String
  | invalidIdentifier kind text => "invalid " ++ kind.noun ++ ": " ++ Text.quoted text
  | invalidPinType text => "invalid pin type: " ++ Text.quoted text
  | invalidPatchPath text reason => "invalid patch path " ++ Text.quoted text ++ ": " ++ reason
  | valueTypeMismatch pin expected =>
    "value for pin '" ++ pin.text ++ "' does not fit type " ++ expected
  | keyMismatch key embedded =>
    "document key " ++ Text.quoted key ++ " does not match embedded id " ++ Text.quoted embedded

/-- The identifier with the given text; a blank text is refused. -/
def Identifier.parse {kind : Kind} (s : String) : Except ValidationError (Identifier kind) :=
  match ofText? s with
  | some id => .ok id
  | none => .error (.invalidIdentifier kind s)

/-- The patch path with the given text; its first fault is reported. -/
def PatchPath.parse (s : String) : Except ValidationError PatchPath :=
  match ofText s with
  | .ok path => .ok path
  | .error fault => .error (.invalidPatchPath s fault.reason)

/-- The data type with the given name. -/
def DataType.parse (s : String) : Except ValidationError DataType :=
  match ofText? s with
  | some type => .ok type
  | none => .error (.invalidPinType s)

end Patchbay

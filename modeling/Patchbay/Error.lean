import Patchbay.Validation

/-! Errors of the project model: broken structure, and paths or identifiers that lead nowhere. -/

namespace Patchbay

/-- A change would break the structure of a patch or project. -/
inductive StructuralError where
  | danglingLinkEndpoint (link : LinkId) (node : NodeId)
  | duplicateInputBinding (node : NodeId) (pin : PinKey)
  | duplicatePinKey (pin : PinKey)
  | pathConflict (patch : PatchPath)
  | cycleDetected (node : NodeId)
deriving DecidableEq

def StructuralError.message : StructuralError → String
  | danglingLinkEndpoint link node =>
    "link '" ++ link.text ++ "' refers to missing node '" ++ node.text ++ "'"
  | duplicateInputBinding node pin =>
    "input pin '" ++ pin.text ++ "' of node '" ++ node.text ++ "' is already bound"
  | duplicatePinKey pin => "duplicate pin key: '" ++ pin.text ++ "'"
  | pathConflict patch => "patch path already exists: '" ++ patch.text ++ "'"
  | cycleDetected node => "cycle detected at node '" ++ node.text ++ "'"

/-- A path or identifier that does not resolve. -/
inductive LookupError where
  | patchNotFound (patch : PatchPath)
  | nodeNotFound (patch : PatchPath) (node : NodeId)
  | linkNotFound (patch : PatchPath) (link : LinkId)
  | pinNotFound (patch : PatchPath) (pin : PinKey)
deriving DecidableEq

def LookupError.message : LookupError → String
  | patchNotFound patch => "patch not found: '" ++ patch.text ++ "'"
  | nodeNotFound patch node =>
    "node '" ++ node.text ++ "' not found in patch '" ++ patch.text ++ "'"
  | linkNotFound patch link =>
    "link '" ++ link.text ++ "' not found in patch '" ++ patch.text ++ "'"
  | pinNotFound patch pin => "pin '" ++ pin.text ++ "' not found on patch '" ++ patch.text ++ "'"

/-- Any error of the project model. -/
inductive ProjectError where
  | validation (error : ValidationError)
  | structural (error : StructuralError)
  | lookup (error : LookupError)
  | directionMismatch (patch : PatchPath) (link : LinkId) (pin : PinKey)
deriving DecidableEq

namespace ProjectError

def message : ProjectError → String
  | validation error => "validation error: " ++ error.message
  | structural error => "structural error: " ++ error.message
  | lookup error => "lookup error: " ++ error.message
  | directionMismatch patch link pin =>
    "link '" ++ link.text ++ "' in patch '" ++ patch.text ++ "' connects pin '" ++ pin.text ++
      "' in the wrong direction"

/-- A failed lookup means that a caller took something for granted; all else can be reported and
passed over. -/
def isRecoverable : ProjectError → Bool
  | lookup _ => false
  | _ => true

end ProjectError

end Patchbay

import Patchbay.Json.Value

/-! Bundles, the older form of projects: patches and node types stand in two parts of a document,
and an identifier that is in both names one entry. -/

namespace Patchbay.Bundle

/-- The parts of a bundle that hold entries. -/
inductive Part where
  | patches
  | nodeTypes
deriving DecidableEq

/-- The member of the bundle that holds a part. -/
def Part.name : Part → String
  | patches => "patches"
  | nodeTypes => "nodeTypes"

/-- What is wrong with the structure of a bundle. -/
inductive Fault where
  | notObject
  | partNotObject (part : Part)
  | entryNotObject (part : Part) (id : String)
  | wrongEndCount (link patch : String) (count : Nat)
deriving DecidableEq

def Fault.message : Fault → String
  | notObject => "bundle must be an object"
  | partNotObject part => "'" ++ part.name ++ "' must be an object"
  | entryNotObject part id => part.name ++ " entry '" ++ id ++ "' must be an object"
  | wrongEndCount link patch count =>
    "link '" ++ link ++ "' in patch '" ++ patch ++ "' must have two pins, found " ++ toString count

/-- The undecoded fields of an entry. -/
abbrev Fields := OrderedMap String Json

/-- The fields of one entry of a part. -/
def fieldsOf (part : Part) (id : String) : Json → Except Fault Fields
  | .object members => .ok (Json.fields members)
  | _ => .error (.entryNotObject part id)

/-- The entries of a part, which may be missing. -/
def entriesOf (bundle : Json) (part : Part) : Except Fault (OrderedMap String Fields) :=
  match bundle.member? part.name with
  | none => .ok .empty
  | some (.object members) => (Json.fields members).traverse (fieldsOf part)
  | some _ => .error (.partNotObject part)

/-- The entries of both parts. Where both have an entry, its fields in the node types override
those in the patches. -/
def merge (bundle : Json) : Except Fault (OrderedMap String Fields) :=
  match bundle with
  | .object _ => do
    let patches ← entriesOf bundle .patches
    let nodeTypes ← entriesOf bundle .nodeTypes
    return patches.mergeWith .override nodeTypes
  | _ => .error .notObject

end Patchbay.Bundle

import Patchbay.Project.Basic
import Patchbay.Settings

/-! Extraction: literals bound to the inputs of an entry patch become constant nodes that are linked
to these inputs, as compilers see only values that flow along links. Inputs with a link and outputs
of a node's type are left alone, so that constant nodes keep their literals. -/

namespace Patchbay

/-- Why an extraction fails. The project is not changed then. -/
inductive ExtractionError where
  | lookup (error : LookupError)
  | structural (error : StructuralError)
  | unknownPin (nodeType : PatchPath) (pin : PinKey)
  | noConstantForType (pin : PinKey) (type : DataType)
  | constantWithoutOutput (patch : PatchPath)
deriving DecidableEq

def ExtractionError.message : ExtractionError → String
  | lookup error => error.message
  | structural error => error.message
  | unknownPin nodeType pin =>
    "pin '" ++ pin.text ++ "' is not declared by node type '" ++ nodeType.text ++ "'"
  | noConstantForType pin type =>
    "no constant node for pin '" ++ pin.text ++ "' of type '" ++ type.text ++ "'"
  | constantWithoutOutput patch => "constant patch '" ++ patch.text ++ "' has no output pin"

/-- A literal bound to a pin of a node. -/
structure BoundValue where
  node : Node
  pin : PinKey
  value : Literal

/-- A literal to extract, with the patch that makes its constant. -/
structure Extract extends BoundValue where
  constant : PatchPath

/-- An extract with the output pin of its constant. -/
structure Supply extends Extract where
  output : PinKey

namespace Extraction

/-- The pins of a node whose literals stay: those with a link, and the outputs of its type. -/
def occupied (patch : Patch) (type : Patch) (node : Node) (pin : PinKey) : Bool :=
  (patch.linkedInputs node.id).contains pin || (type.outputs.map Pin.key).contains pin

/-- The bound literals of a node that do not stay. -/
def freeValues (library : Library) (patch : Patch) (node : Node) :
    Except LookupError (List BoundValue) :=
  if node.bound.isEmpty || node.isTerminal then .ok []
  else do
    let type ← library.require node.type
    return (node.bound.toList.filter fun (pin, _) => !occupied patch type node pin).map
      fun (pin, value) => { node, pin, value }

/-- The extract of a free value: its type is that of the pin that the node's type declares. -/
def extract (settings : Settings) (type : Patch) (free : BoundValue) :
    Except ExtractionError Extract :=
  match type.pin? free.pin with
  | none => .error (.unknownPin type.path free.pin)
  | some declared =>
    match settings.constantFor? declared.type with
    | none => .error (.noConstantForType free.pin declared.type)
    | some constant => .ok { free with constant }

/-- The extracts of a node. The project declares its pins, the library its outputs. -/
def extractsOf (flat : Project) (library : Library) (settings : Settings) (patch : Patch)
    (node : Node) : Except ExtractionError (List Extract) := do
  match ← (freeValues library patch node).mapError .lookup with
  | [] => return []
  | free =>
    let type ← (flat.require node.type).mapError .lookup
    free.mapM (extract settings type)

/-- The extracts of a patch, node by node. -/
def extracts (flat : Project) (library : Library) (settings : Settings) (patch : Patch) :
    Except ExtractionError (List Extract) := do
  return (← patch.nodes.values.mapM (extractsOf flat library settings patch)).flatten

/-- Completes an extract with the first output pin of its constant. -/
def supply (library : Library) (e : Extract) : Except ExtractionError Supply := do
  let constant ← (library.require e.constant).mapError .lookup
  match constant.outputs with
  | [] => .error (.constantWithoutOutput e.constant)
  | output :: _ => return { e with output := output.key }

/-- What new identifiers are derived from: the entry, the node and the pin. -/
def seed (entry : PatchPath) (e : Extract) : String :=
  entry.text ++ "/" ++ e.node.id.text ++ "/" ++ e.pin.text

/-- The constant node of a supply. -/
def constantNode (settings : Settings) (entry : PatchPath) (s : Supply) : Node :=
  { id := .derived (seed entry s.toExtract), type := s.constant, position := settings.placeholder
    bound := .ofList [(s.output, s.value)] }

/-- The link from the constant node of a supply to the pin that it feeds. -/
def constantLink (settings : Settings) (entry : PatchPath) (s : Supply) : Link :=
  { id := .derived (seed entry s.toExtract), input := ⟨s.node.id, s.pin⟩
    output := ⟨(constantNode settings entry s).id, s.output⟩ }

/-- The nodes with free values, without these. -/
def bareNodes (supplies : List Supply) : OrderedMap NodeId Node :=
  supplies.foldl (fun nodes s =>
    nodes.insert s.node.id (((nodes.get? s.node.id).getD s.node).unbind s.pin)) .empty

/-- The patch with constant nodes in place of the free values: nodes lose these first, then the
constants are added, then the links. -/
def supplied (settings : Settings) (entry : PatchPath) (supplies : List Supply) (patch : Patch) :
    Except StructuralError Patch := do
  let patch ← (bareNodes supplies).values.foldlM Patch.insertNode patch
  let patch ← (supplies.map (constantNode settings entry)).foldlM Patch.insertNode patch
  (supplies.map (constantLink settings entry)).foldlM Patch.insertLink patch

/-- The constants of supplies, as the library has them. -/
def definitions (library : Library) (supplies : List Supply) : OrderedMap PatchPath Patch :=
  .ofList (supplies.filterMap fun s => (library s.constant).map (s.constant, ·))

end Extraction

/-- What an extraction stores in the project, in this order, and how many literals it extracts. -/
structure Extraction where
  stored : List (PatchPath × Patch) := []
  count : Nat := 0

/-- The project with what an extraction stores. -/
def Extraction.apply (extraction : Extraction) (project : Project) : Project :=
  extraction.stored.foldl (fun project (path, patch) => project.store path patch) project

/-- What is reported of an extraction. -/
def Extraction.event (extraction : Extraction) (entry : PatchPath) : Event :=
  if extraction.count = 0 then ⟨.debug, "No bound inputs to extract in " ++ entry.text⟩
  else ⟨.info, "Extracted " ++ toString extraction.count ++ " bound inputs of " ++ entry.text ++
    " into constant nodes"⟩

open Extraction in
/-- Replaces the free values of the entry patch by constant nodes, whose patches are copied from the
library. Without free values nothing is stored. -/
def Project.extraction (flat : Project) (entry : PatchPath) (library : Library)
    (settings : Settings) : Except ExtractionError Extraction := do
  let patch ← (flat.require entry).mapError .lookup
  let supplies ← (← extracts flat library settings patch).mapM (supply library)
  if supplies.isEmpty then return {}
  else
    let patch ← (supplied settings entry supplies patch).mapError .structural
    return { stored := (definitions library supplies).toList ++ [(entry, patch)]
             count := supplies.length }

/-- An extraction that is reported when it succeeds. -/
def Project.reportedExtraction (flat : Project) (entry : PatchPath) (library : Library)
    (settings : Settings) : Traced ExtractionError Extraction := do
  let extraction ← Traced.ofExcept (flat.extraction entry library settings)
  let event := extraction.event entry
  Traced.report event.level event.text
  return extraction

/-- The project with constant nodes in place of the free values of its entry patch. -/
def Project.extract (flat : Project) (entry : PatchPath) (library : Library)
    (settings : Settings) : Traced ExtractionError Project := do
  return (← flat.reportedExtraction entry library settings).apply flat

end Patchbay

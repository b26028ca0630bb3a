import Patchbay.Bundle.Entry
import Patchbay.Project.Basic
import Patchbay.Traced

/-! The project of a bundle. New identifiers are derived from the old ones, so that a bundle always
gives the same project; the first failure ends the migration. -/

namespace Patchbay.Bundle

open Json

/-- Why a bundle has no project. -/
inductive MigrationError where
  | undecodable (error : DecodeError)
  | malformed (fault : Fault)
  | unknownNode (patch link node : String)
  | project (error : ProjectError)
deriving DecidableEq

namespace MigrationError

def message : MigrationError → String
  | undecodable error => "invalid bundle json: " ++ error.message
  | malformed fault => "malformed bundle: " ++ fault.message
  | unknownNode patch link node =>
    "link '" ++ link ++ "' in patch '" ++ patch ++ "' refers to unknown node '" ++ node ++ "'"
  | project error => error.message

/-- A computation that checks arguments, as part of a migration. -/
def validated {α : Type} (x : Except ValidationError α) : Except MigrationError α :=
  x.mapError fun e => .project (.validation e)

/-- A computation that changes a patch, as part of a migration. -/
def attached {α : Type} (x : Except StructuralError α) : Except MigrationError α :=
  x.mapError fun e => .project (.structural e)

end MigrationError

open MigrationError

/-- The name of a type today. -/
def currentTypeName (name : String) : String := if name = "bool" then "boolean" else name

/-- The entries of a bundle by identifier. -/
abbrev Entries := OrderedMap String Entry

/-- The type that a pin of a node type declares, if there is such a pin and its type has a name. -/
def Entries.declaredType? (entries : Entries) (type pin : String) : Option DataType := do
  let entry ← entries.get? type
  let slot ← entry.pins.get? pin
  DataType.ofText? (currentTypeName (← slot.type))

/-- What new identifiers are derived from: the patch and the old identifier. -/
def seed (patch old : String) : String := patch ++ "/" ++ old

/-- The pin that a slot describes. Its own key goes before the one that it is stored under. -/
def Slot.toPin (slot : Slot) (key : String) : Except ValidationError Pin := do
  let pin ← Pin.parse (slot.key.getD key) (currentTypeName (slot.type.getD "")) slot.direction
  return { pin with order := slot.index, label := slot.label }

/-- The literal that an injected pin binds. Without one of its own it is the default of the declared
type, and otherwise `false`. A literal has to fit a declared basic type. -/
def Injection.literal (injection : Injection) (declared : Option DataType) (pin : PinKey)
    (type : String) : Traced MigrationError Literal :=
  match injection.value with
  | some value =>
    match declared.filter fun expected => expected.isPrimitive && !value.fits expected with
    | some expected => Traced.ofExcept (validated (.error (.valueTypeMismatch pin expected.text)))
    | none => pure value
  | none =>
    match declared.bind DataType.default? with
    | some value => pure value
    | none => do
      Traced.report .warning ("Injected pin " ++ pin.text ++ " of " ++ type ++
        " has no value and no known type, binding false")
      return .boolean false

/-- The node of an instance, with the literals of its injected pins. -/
def Instance.toNode (node : Instance) (entries : Entries) (patch old : String) :
    Traced MigrationError Node := do
  let type ← validated (PatchPath.parse node.type)
  (node.pins.toList.filter (·.2.injected)).foldlM (fun result (key, injection) => do
    let pin ← validated (Identifier.parse key)
    let declared := entries.declaredType? node.type key
    return result.bind pin (← injection.literal declared pin node.type))
    { id := .derived (seed patch old), type, position := node.position }

/-- The new identifier of a node of the entry. -/
def Entry.nodeId? (entry : Entry) (patch old : String) : Option NodeId :=
  if entry.nodes.contains old then some (.derived (seed patch old)) else none

/-- The endpoint that an end of a link names. A pin key that is the identifier of a node means the
pin that this node defines. -/
def Entry.endpoint (entry : Entry) (patch link : String) (e : WireEnd) :
    Except MigrationError Endpoint :=
  match entry.nodeId? patch e.node with
  | none => .error (.unknownNode patch link e.node)
  | some node =>
    match entry.nodeId? patch e.pin with
    | some terminal => .ok ⟨node, terminal.toPinKey⟩
    | none => do return ⟨node, ← validated (Identifier.parse e.pin)⟩

/-- The link of a wire. -/
def Entry.link (entry : Entry) (patch id : String) (wire : Wire) : Except MigrationError Link :=
  match wire.ends with
  | [input, output] => do
    let input ← entry.endpoint patch id input
    let output ← entry.endpoint patch id output
    return { id := .derived (seed patch id), input, output }
  | ends => .error (.malformed (.wrongEndCount id patch ends.length))

/-- The patch of an entry: its own pins come first, then its nodes, then its links. -/
def Entry.toPatch (entry : Entry) (entries : Entries) (id : String) :
    Traced MigrationError Patch := do
  let path ← validated (PatchPath.parse id)
  let patch : Patch := { path, label := entry.label }
  let patch ← (entry.pins.toList.filter (·.2.node.isNone)).foldlM (fun patch (key, slot) => do
    attached (patch.insertPin (← validated (slot.toPin key)))) patch
  let patch ← entry.nodes.toList.foldlM (fun patch (old, node) => do
    let node ← node.toNode entries id old
    attached (patch.insertNode node)) patch
  let patch := entry.impls.toList.foldl (fun patch (target, source) => patch.addImpl target source)
    patch
  entry.links.toList.foldlM (fun patch (old, wire) => do
    attached (patch.insertLink (← entry.link id old wire))) patch

/-- The author that a bundle names. -/
def author? (bundle : Json) : Option String := do
  match ← (← bundle.member? "meta").member? "author" with
  | .string author => some author
  | _ => none

/-- The decoded entries of a bundle. -/
def entries (bundle : Json) : Except MigrationError Entries := do
  let merged ← (merge bundle).mapError .malformed
  merged.traverse fun _ fields => (Entry.ofFields fields).mapError .undecodable

/-- The project of a bundle. -/
def migrate (bundle : Json) : Traced MigrationError Project := do
  let entries ← entries bundle
  let project ← entries.toList.foldlM (fun project (id, entry) => do
    let patch ← entry.toPatch entries id
    Traced.report .debug ("Converted legacy patch " ++ id ++ ": " ++ toString patch.nodes.size ++
      " nodes, " ++ toString patch.links.size ++ " links")
    return project.store patch.path patch) { authors := (author? bundle).toList }
  Traced.report .info
    ("Migrated legacy bundle into " ++ toString project.patches.size ++ " patches")
  return project

/-- The project of the bundle in a text. -/
def migrateText (s : String) : Traced MigrationError Project := do
  let bundle ← (Json.parse s).mapError MigrationError.undecodable
  migrate bundle

end Patchbay.Bundle

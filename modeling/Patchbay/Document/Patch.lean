import Patchbay.Document.Parts
import Patchbay.Patch.Basic

/-! The document form of patches, and building a patch from its document entry by entry. -/

namespace Patchbay

open Json

/-- A patch as a document stores it, not yet checked. Its path is the name it is stored under. -/
structure PatchDocument where
  label : Option String := none
  nodes : OrderedMap NodeId Node := .empty
  links : OrderedMap LinkId Link := .empty
  pins : OrderedMap PinKey Pin := .empty
  impls : OrderedMap String String := .empty
deriving DecidableEq

namespace PatchDocument

def record : Record PatchDocument :=
  PatchDocument.mk <$> Record.optional "label" Decoder.string
    <*> Record.field "nodes" (Decoder.map (checkedBy Identifier.parse) Node.decoder) (some .empty)
    <*> Record.field "links" (Decoder.map (checkedBy Identifier.parse) Link.decoder) (some .empty)
    <*> Record.field "pins" (Decoder.map (checkedBy Identifier.parse) Pin.decoder) (some .empty)
    <*> Record.field "impls" (Decoder.map .ok Decoder.string) (some .empty)

def decoder : Decoder PatchDocument := record.decoder

def toJson (document : PatchDocument) : Json :=
  Json.present [
    ("label", document.label.map .string),
    ("nodes", some (Json.ofMap Node.toJson document.nodes)),
    ("links", some (Json.ofMap Link.toJson document.links)),
    ("pins", some (Json.ofMap Pin.toJson document.pins)),
    ("impls",
      if document.impls.isEmpty then none else some (Json.ofMap .string document.impls))]

/-- Entries have to be stored under the identifiers that they carry. -/
def checkKeys {κ α : Type} [TextKey κ] (embedded : α → String) (entries : OrderedMap κ α) :
    Except ValidationError Unit :=
  match entries.toList.find? fun (key, value) => text key ≠ embedded value with
  | some (key, value) => .error (.keyMismatch (text key) (embedded value))
  | none => .ok ()

/-- The patch of a document: keys are checked first, then nodes, pins and links are inserted. -/
def toPatch (document : PatchDocument) (path : PatchPath) : Except ProjectError Patch := do
  (checkKeys (·.id.text) document.nodes).mapError .validation
  (checkKeys (·.id.text) document.links).mapError .validation
  (checkKeys (·.key.text) document.pins).mapError .validation
  let patch : Patch := { path, label := document.label, impls := document.impls }
  (do
    let patch ← document.nodes.values.foldlM Patch.insertNode patch
    let patch ← document.pins.values.foldlM Patch.insertPin patch
    document.links.values.foldlM Patch.insertLink patch).mapError .structural

end PatchDocument

/-- The document that stores a patch. -/
def Patch.document (patch : Patch) : PatchDocument :=
  { label := patch.label, nodes := patch.nodes, links := patch.links, pins := patch.pins
    impls := patch.impls }

def Patch.toJson (patch : Patch) : Json := patch.document.toJson

end Patchbay

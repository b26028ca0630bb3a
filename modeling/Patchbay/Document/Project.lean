import Patchbay.Document.Patch
import Patchbay.Project.Basic

/-! The document form of projects. A document is decoded as a whole before its patches are built. -/

namespace Patchbay

open Json

/-- A project as a document stores it, not yet checked. -/
structure ProjectDocument where
  patches : OrderedMap PatchPath PatchDocument := .empty
  authors : List String := []
deriving DecidableEq

namespace ProjectDocument

def record : Record ProjectDocument :=
  ProjectDocument.mk <$> Record.field "patches"
      (Decoder.map (checkedBy PatchPath.parse) PatchDocument.decoder) (some .empty)
    <*> Record.field "authors" Decoder.string.list (some [])

def decoder : Decoder ProjectDocument := record.decoder

def toJson (document : ProjectDocument) : Json :=
  .object [
    ("patches", Json.ofMap PatchDocument.toJson document.patches),
    ("authors", .array (document.authors.map .string))]

/-- The project of a document: its patches are built and stored one after another. -/
def toProject (document : ProjectDocument) : Except ProjectError Project :=
  document.patches.toList.foldlM (fun project (path, patch) => do
    return project.store path (← patch.toPatch path)) { authors := document.authors }

end ProjectDocument

namespace Project

/-- The document that stores a project. -/
def document (project : Project) : ProjectDocument :=
  { patches := project.patches.map fun _ patch => patch.document, authors := project.authors }

def toJson (project : Project) : Json := project.document.toJson

def decoder : Decoder Project :=
  ProjectDocument.decoder.refine fun document => document.toProject.mapError ProjectError.message

/-- The project of a JSON value. -/
def ofJson (value : Json) : Except DecodeError Project := decodeValue decoder value

/-- The project of a JSON text. -/
def ofText (s : String) : Except DecodeError Project := decodeText decoder s

end Project

end Patchbay

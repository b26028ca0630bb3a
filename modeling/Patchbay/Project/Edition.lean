import Patchbay.Extraction
import Patchbay.Index.Comparison

/-! Editions: projects that know which of their pages of patches they share with other editions.
Editions are compared page by page, and a shared page agrees with itself even where it holds a
number that does not, a NaN. -/

namespace Patchbay

/-- A project with the index of its paths. -/
structure Edition where
  project : Project := {}
  index : Index PatchPath := .empty

namespace Edition

/-- The first edition of a project: its paths are entered in order. -/
def ofProject (project : Project) : Edition :=
  { project, index := project.patches.keys.foldl (fun index path => index.insert 0 path) .empty }

/-- Adds an author after the others. -/
def addAuthor (edition : Edition) (author : String) : Edition :=
  { edition with project := edition.project.addAuthor author }

/-! Every edit has a number of its own, its stamp, which no other edit may have. -/

/-- Stores a patch at a path, in place of any patch there. -/
def store (stamp : Nat) (edition : Edition) (path : PatchPath) (patch : Patch) : Edition :=
  { project := edition.project.store path patch, index := edition.index.insert stamp path }

/-- Stores a patch at its own path, which has to be free. -/
def add (stamp : Nat) (edition : Edition) (patch : Patch) : Except StructuralError Edition := do
  let project ← edition.project.add patch
  return { project, index := edition.index.insert stamp patch.path }

/-- Drops the patch at a path. -/
def remove (stamp : Nat) (edition : Edition) (path : PatchPath) : Edition :=
  { project := edition.project.remove path, index := edition.index.erase stamp path }

/-- Puts constant nodes in place of the free values of an entry patch. With nothing to extract this
is the same edition. -/
def extract (stamp : Nat) (edition : Edition) (entry : PatchPath) (library : Library)
    (settings : Settings) : Traced ExtractionError Edition := do
  let extraction ← edition.project.reportedExtraction entry library settings
  return extraction.stored.foldl (fun edition (path, patch) => edition.store stamp path patch)
    edition

/-- Whether the patches that two editions store at a path agree. -/
def agreesAt (a b : Edition) (path : PatchPath) : Bool :=
  match a.project.patches.get? path, b.project.patches.get? path with
  | some x, some y => x.agrees y
  | _, _ => false

/-- Equality of editions, which compares numbers as arithmetic does but passes over shared pages. -/
def agrees (a b : Edition) : Bool :=
  a.project.patches.size = b.project.patches.size && a.index.agrees (agreesAt a b) b.index &&
    a.project.authors = b.project.authors

end Edition

end Patchbay

import Patchbay.Patch.Interface

/-! Projects: patches stored by path, with the authors of the project, and the queries that follow a
node to the patch it instantiates. -/

namespace Patchbay

/-- Anything that finds patches by path. -/
abbrev Library := PatchPath → Option Patch

/-- The patch at a path, or the error that names the path. -/
def Library.require (library : Library) (path : PatchPath) : Except LookupError Patch :=
  match library path with
  | some patch => .ok patch
  | none => .error (.patchNotFound path)

/-- Patches by path, each stored under its own path, and the project's authors. -/
structure Project where
  patches : OrderedMap PatchPath Patch := .empty
  authors : List String := []
deriving DecidableEq

namespace Project

/-- The project as a library of its patches. -/
def library (project : Project) : Library := project.patches.get?

/-- The patch at a path, or the error that names the path. -/
def require (project : Project) (path : PatchPath) : Except LookupError Patch :=
  Library.require project.library path

/-- What is said of a path that a caller wrongly vouched for. -/
def brokenPromise (path : PatchPath) : String :=
  "patch '" ++ path.text ++ "' expected in project but not found"

/-- The patch at a path that the caller vouches for. -/
def vouched (project : Project) (path : PatchPath) : Except String Patch :=
  match project.patches.get? path with
  | some patch => .ok patch
  | none => .error (brokenPromise path)

/-- Adds an author after the others. -/
def addAuthor (project : Project) (author : String) : Project :=
  { project with authors := project.authors ++ [author] }

/-- Stores a patch at a path, in place of any patch there; the patch takes the path as its own. -/
def store (project : Project) (path : PatchPath) (patch : Patch) : Project :=
  { project with patches := project.patches.insert path { patch with path } }

/-- Stores a patch at its own path, which has to be free. -/
def add (project : Project) (patch : Patch) : Except StructuralError Project :=
  if project.patches.contains patch.path then .error (.pathConflict patch.path)
  else .ok (project.store patch.path patch)

/-- Drops the patch at a path. -/
def remove (project : Project) (path : PatchPath) : Project :=
  { project with patches := project.patches.erase path }

/-- The patch that a node of the patch at `path` instantiates. -/
def resolveType (project : Project) (path : PatchPath) (node : NodeId) :
    Except LookupError Patch := do
  let patch ← project.require path
  let node ← patch.requireNode node
  project.require node.type

/-- The pin of a node of the patch at `path`, as the node's type declares it. -/
def resolvePin (project : Project) (path : PatchPath) (node : NodeId) (pin : PinKey) :
    Except LookupError Pin := do
  let type ← project.resolveType path node
  match type.pin? pin with
  | some pin => .ok pin
  | none => .error (.pinNotFound type.path pin)

/-- Equality that compares numbers as arithmetic does. -/
def agrees (a b : Project) : Bool :=
  a.patches.agreesBy Patch.agrees b.patches && a.authors = b.authors

end Project

end Patchbay

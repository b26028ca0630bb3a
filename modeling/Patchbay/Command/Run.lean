import Patchbay.Bundle.Migration
import Patchbay.Command.Arguments
import Patchbay.Document.Project
import Patchbay.Extraction
import Patchbay.Project.Problems

/-! Running commands: what they read, what they give, and how a run is shown. Files are read before
a run and written after it. -/

namespace Patchbay

namespace Command

/-- The files that a command reads. -/
def sources : Command → List String
  | migrate bundle _ => [bundle]
  | extract flat _ library config _ => config.toList ++ [flat, library]
  | check project => [project]

/-- Why a command fails. -/
inductive Failure where
  | unreadable (name : String) (fault : FileFault)
  | unwritable (name : String) (fault : FileFault)
  | unloadable (name : String) (error : Json.DecodeError)
  | settings (error : SettingsError)
  | notMigrated (name : String) (error : Bundle.MigrationError)
  | notExtracted (entry : PatchPath) (error : ExtractionError)

namespace Failure

/-- What was being done. -/
def context : Failure → String
  | unreadable name _ => "failed to read " ++ name
  | unwritable name _ => "failed to write " ++ name
  | unloadable name _ => "failed to load project " ++ name
  | settings error => error.message
  | notMigrated name _ => "failed to migrate " ++ name
  | notExtracted entry _ => "failed to extract bound inputs of " ++ entry.text

/-- What went wrong with it, where the context does not tell. -/
def cause? : Failure → Option String
  | unreadable _ fault => some fault.message
  | unwritable _ fault => some fault.message
  | unloadable _ error => some error.message
  | settings _ => none
  | notMigrated _ error => some error.message
  | notExtracted _ error => some error.message

end Failure

/-- What a command gives: a project for its output, or the findings of a check. -/
inductive Product where
  | document (project : Project) (output : Option String)
  | findings (project : Project)

/-- The text of a file. -/
def read (files : String → FileText) (name : String) : Except Failure String :=
  (files name).mapError (.unreadable name)

/-- The project in a file. -/
def readProject (files : String → FileText) (name : String) : Except Failure Project := do
  (Project.ofText (← read files name)).mapError (.unloadable name)

/-- The settings in a file, or the standard ones. -/
def readSettings (files : String → FileText) : Option String → Traced Failure Settings
  | none => pure {}
  | some name => (Settings.load name (files name)).mapError .settings

/-- Runs a command on the texts of files. -/
def run (files : String → FileText) : Command → Traced Failure Product
  | migrate bundle output => do
    let s ← read files bundle
    let project ← (Bundle.migrateText s).mapError (Failure.notMigrated bundle)
    return .document project output
  | extract flat entry library config output => do
    let settings ← readSettings files config
    let flat ← readProject files flat
    let library ← readProject files library
    let project ← (flat.extract entry library.library settings).mapError
      (Failure.notExtracted entry)
    return .document project output
  | check name => do
    let project ← readProject files name
    Traced.report .debug ("Validated " ++ name ++ " with " ++ toString project.problems.length ++
      " problems")
    return .findings project

/-- The sum of a number of each patch. -/
def total (project : Project) (count : Patch → Nat) : Nat :=
  project.patches.values.foldl (fun sum patch => sum + count patch) 0

/-- The lines that a check prints. -/
def findingLines (project : Project) : List String :=
  ["Patches: " ++ toString project.patches.size,
    "Nodes:   " ++ toString (total project (·.nodes.size)),
    "Links:   " ++ toString (total project (·.links.size))] ++
  match project.problems with
  | [] => ["Status:  OK"]
  | problems => "Problems:" :: problems.map fun problem => "  - " ++ problem.message

/-- How a run is shown: what is printed and written, and the exit status. -/
structure Display where
  status : UInt8 := 0
  output : String := ""
  error : String := ""
  file : Option (String × String) := none

namespace Display

/-- Lines with their ends. -/
def lines (l : List String) : String := String.join (l.map (· ++ "\n"))

def ofFailure (failure : Failure) : Display where
  status := 1
  error := lines (("Error: " ++ failure.context) ::
    (failure.cause?.toList.flatMap fun cause => ["", "Caused by:", "    " ++ cause]))

def ofProduct : Product → Display
  | .document project none => { output := lines [project.toJson.pretty] }
  | .document project (some name) => { file := some (name, project.toJson.pretty) }
  | .findings project =>
    { status := if project.problems.isEmpty then 0 else 1, output := lines (findingLines project) }

/-- The commands and options in short. -/
def usage : List String :=
  ["XOD project tools", "", "Usage: xod [OPTIONS] <COMMAND>", "", "Commands:",
    "  migrate <bundle> [-o <output>]",
    "  extract <flat> --entry <entry> --library <library> [--config <config>] [-o <output>]",
    "  check <project>", "", "Options:", "  -v, --verbose", "  -h, --help", "  -V, --version"]

def ofRefusal : Refusal → Display
  | .help => { output := lines usage }
  | .version => { output := lines ["xod 0.1.0"] }
  | .misuse => { status := 2, error := lines usage }

def ofOutcome : Except Failure Product → Display
  | .ok product => ofProduct product
  | .error failure => ofFailure failure

end Display

end Command

end Patchbay

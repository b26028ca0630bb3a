import Patchbay.Command.Run

/-! The command-line tool: files, streams and the exit status. -/

namespace Patchbay

/-- Runs a file operation; a failure counts as a fault of the file. -/
def attempt {α : Type} (action : IO α) : IO (Except FileFault α) := do
  try return .ok (← action)
  catch e => return .error (match e with
    | .noFileOrDirectory .. => .missing
    | .inappropriateType .. => .directory
    | e => .other (toString e))

/-- The text of a file. -/
def readText (name : String) : IO FileText := do
  match ← attempt (IO.FS.readBinFile name) with
  | .ok bytes => return .ofBytes bytes
  | .error fault => return .error fault

/-- Prints what a run shows, and gives the exit status. -/
def present (display : Command.Display) : IO UInt32 := do
  IO.print display.output
  IO.eprint display.error
  return display.status.toUInt32

/-- Runs the tool. -/
def runTool (arguments : List String) : IO UInt32 := do
  match Command.ofArguments {} arguments with
  | .error refusal => present (.ofRefusal refusal)
  | .ok invocation =>
    let texts ← invocation.command.sources.mapM fun name => return (name, ← readText name)
    let run := invocation.command.run fun name => (texts.lookup name).getD (.error .missing)
    for event in run.events do
      if invocation.verbose || event.level ≠ .debug then
        IO.eprintln (event.level.name ++ " " ++ event.text)
    let display := Command.Display.ofOutcome run.outcome
    match display.file with
    | none => present display
    | some (name, text) =>
      match ← attempt (IO.FS.writeFile name text) with
      | .ok () =>
        IO.eprintln ("INFO Wrote " ++ name)
        present display
      | .error fault => present (.ofFailure (.unwritable name fault))

end Patchbay

def main (arguments : List String) : IO UInt32 := Patchbay.runTool arguments

import ControlFile.Command.Report
import ControlFile.Table.Layout

/-!
# The program

The outer layer of the command line: it looks up the settings in the environment, reads the file
that a command names, and writes what the report of the command holds. What a command does is
decided by `runWords`.
-/

namespace ControlFile.Main

/-- The settings in the environment of the process. -/
def environment : IO Environment := do
  let architectures ← IO.getEnv Setting.architectures.variableName
  let forcedFields ← IO.getEnv Setting.forcedFields.variableName
  let lineLimit ← IO.getEnv Setting.lineLimit.variableName
  return fun setting =>
    match setting with
    | .architectures => architectures.map String.toList
    | .forcedFields => forcedFields.map String.toList
    | .lineLimit => lineLimit.map String.toList

/-- The octets of the file that a command reads, if there is such a file. -/
def octets? : Command → IO (Option (List UInt8))
  | .records selection => do
    let .ok bytes ← (IO.FS.readBinFile (Path.normal selection.path).str).toBaseIO | return none
    return some bytes.data.toList
  | .fields | .version _ => return none

/-- Whether an event is shown. -/
def isShown (verbose : Bool) (e : Event) : Bool := verbose || e.level != .debug

/-- A text as it is written to a stream. -/
def textFor (stream : IO.FS.Stream) (t : Text) : IO String := do
  return if ← stream.isTty then t.str else t.withoutControls.str

/-- Writes what a report holds. -/
def write (verbose : Bool) (report : Report) : IO Unit := do
  IO.print (← textFor (← IO.getStdout) report.out)
  for table in report.tables do
    IO.print table.text.str
  for event in report.events.filter (isShown verbose) do
    IO.eprintln event.message
  IO.eprint (← textFor (← IO.getStderr) report.err)
  if let some cause := report.failure then
    IO.eprintln cause.message

/-- The summary of the commands. -/
def usageText : String :=
  "Usage: [-v] show PATH [-f NAME]... [-x NAME]... [--format table|json|control] " ++
    "[-a NAME:PRIORITY]...\n       [-v] fields\n       [-v] version VALUE"

/-- Does what a command line asks for, and gives the exit code. -/
def run (words : List Text) : IO UInt32 := do
  let some invocation := Invocation.parse? words
    | IO.eprintln usageText
      return 2
  let octets? ← octets? invocation.command
  let report := runWords (← environment) (fun _ => octets?) words
  if report.exitCode = 2 then
    IO.eprintln usageText
  write invocation.verbose report
  return UInt32.ofNat report.exitCode

end ControlFile.Main

/-- The entry of the program. -/
def main (args : List String) : IO UInt32 := ControlFile.Main.run (args.map String.toList)

import ControlFile.Command.Arguments
import ControlFile.Package.Json
import ControlFile.Reader
import ControlFile.Table
import ControlFile.Text.ControlSequence

/-!
# Running a command

`Command.run` gives what a command does as a `Report`: the texts for the two outputs, the tables to
draw, the events to log, and the exit code. A command gets its settings and the octets of files as
arguments, so that it is a function. The texts are those for a terminal; `Report.plain` has those for
other outputs.

An argument that is refused, also one whose words are well-formed, ends the command before it does
anything, with exit code 2. A source that cannot be read on, or any other error, ends it with exit
code 1 after what has been shown so far.
-/

namespace ControlFile

/-- What a command does. -/
structure Report where
  exitCode : Nat := 0
  out : Text := []
  err : Text := []
  tables : List Table := []
  events : List Event := []
  /-- The error that ended the command, unless the command has dealt with it itself. -/
  failure : Option Error := none

namespace Report

/-- The report whose texts are written elsewhere than to a terminal. -/
def plain (r : Report) : Report :=
  { r with out := r.out.withoutControls, err := r.err.withoutControls }

/-- The report on arguments that are refused. -/
def usage : Report := { exitCode := 2 }

/-- The report on an error. -/
def failed (cause : Error) : Report :=
  match cause with
  | .badArgument _ => usage
  | _ => { exitCode := 1, failure := some cause }

end Report

/-! ### Arguments that have to be looked at -/

/-- A result whose errors are those of an argument. -/
def asArgument {α : Type} : Except Error α → Except Error α
  | .ok a => .ok a
  | .error cause => .error (.badArgument cause)

/-- The fields to read: those named, or all if none are named, without those excluded. -/
def selectFields (fields exclude : List Text) : Except Error FieldSet := asArgument do
  let wanted ← if fields = [] then .ok .full else FieldSet.ofNames? fields
  let unwanted ← FieldSet.ofNames? exclude
  pure (wanted \ unwanted)

/-- The configuration with the architectures of these entries, if there are any. -/
def selectArchitectures (config : Config) (entries : List Text) : Except Error Config :=
  if entries = [] then .ok config
  else do
    let architectures ← asArgument (ArchPriority.ofList? (Text.join [' '] entries))
    pure { config with architectures }

/-! ### Showing records -/

/-- A record as it is shown. -/
inductive Shown where
  | text (t : Text)
  | table (t : Table)

/-- A record in a format. -/
def Format.show? (format : Format) (p : Package) : Except Error Shown :=
  match format with
  | .table => p.table?.map .table
  | .json => .ok (.text (p.json ++ ['\n']))
  | .control => p.paragraph?.map fun t => .text (t ++ ['\n'])

/-- What has been shown and logged, the latest first, and how many records there were. -/
structure Progress where
  texts : List Text := []
  tables : List Table := []
  events : List Event := []
  count : Nat := 0

namespace Progress

/-- What has been shown, after one more record. -/
def add (s : Progress) : Shown → Progress
  | .text t => { s with texts := t :: s.texts, count := s.count + 1 }
  | .table t => { s with tables := t :: s.tables, count := s.count + 1 }

/-- The report on what has been shown. -/
def report (s : Progress) : Report :=
  { out := s.texts.reverse.flatten, tables := s.tables.reverse, events := s.events.reverse }

end Progress

/-- What has been shown after the items of a trace, and the error that stopped it. -/
def showItems (format : Format) : List Item → Progress → Progress × Option Error
  | [], s => (s, none)
  | .event e :: items, s => showItems format items { s with events := e :: s.events }
  | .package p :: items, s => match format.show? p with
    | .ok shown => showItems format items (s.add shown)
    | .error cause => (s, some cause)

/-- The report on a trace of the file with this path. -/
def Trace.report (trace : Trace) (format : Format) (path : Text) : Report :=
  match showItems format trace.items {} with
  | (s, some cause) => { s.report with exitCode := 1, failure := some cause }
  | (s, none) => match trace.failure with
    -- Only a file that was read to its end is reported with its number of records.
    | none => { s with events := .fileRead s.count path :: s.events : Progress }.report
    | some cause =>
      if cause.isReadFailure then
        { s.report with
          exitCode := 1
          err := s!"Error reading {path.str}: {cause.message}\n".toList }
      else { s.report with exitCode := 1, failure := some cause }

/-- Shows the records of a file. -/
def Selection.run (s : Selection) (env : Environment) (octets : List UInt8) : Report :=
  let result : Except Error Trace := do
    let mask ← selectFields s.fields s.exclude
    let config ← selectArchitectures (← Config.ofEnvironment? env) s.architectures
    pure (readPath mask config s.path octets)
  match result with
  | .ok trace => trace.report s.format (Path.normal s.path)
  | .error cause => .failed cause

/-! ### The other commands -/

/-- Lists the recognised fields. -/
def reportFields (env : Environment) : Report :=
  match Config.ofEnvironment? env with
  | .ok config => { tables := [Header.table config.forced] }
  | .error cause => .failed cause

/-- The parts of a version, a line for each. -/
def Version.partsText (v : Version) : Text :=
  "epoch: ".toList ++ Numeral.signed v.epoch ++ "\nversion: ".toList ++ v.base ++
    "\nrevision: ".toList ++ v.revision.getD ['-'] ++ ['\n']

/-- Takes a version apart. -/
def reportVersion (value : Text) : Report :=
  match Version.ofText? value with
  | .ok v => { out := v.partsText, events := Version.remarks none value }
  | .error cause => .failed cause

/-- What a command does, in this environment and with these files. A file is looked up by its path
without what says nothing, and a path that no file has is refused. -/
def Command.run (env : Environment) (files : Text → Option (List UInt8)) : Command → Report
  | .records selection => match files (Path.normal selection.path) with
    | some octets => selection.run env octets
    | none => .usage
  | .fields => reportFields env
  | .version value => reportVersion value

/-- What a command line does. -/
def runWords (env : Environment) (files : Text → Option (List UInt8)) (words : List Text) :
    Report :=
  match Invocation.parse? words with
  | some invocation => invocation.command.run env files
  | none => .usage

end ControlFile

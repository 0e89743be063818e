import ControlFile.Config
import ControlFile.Header
import ControlFile.Package.Build

/-!
# Reading one record, line by line

A session reads the lines of one record into a `Package`. Most fields stand on one line; two span
several: the description, whose lines are kept as they are, and the list of configuration files,
with a file on each line. Such a block is opened by its header and goes on while lines start with
a space. A description is stored when its block ends, and not before.

The state of a session beside its record is a `Phase`: no block, one of the two blocks, or the end
of the record. So a session is never in two blocks, and a description is being collected exactly
while its block is open.

* `Session.feed` reads a line. It says whether the record goes on (`Outcome`), and which events to
  log.
* `Session.finish` ends the record where the input ends.

A line that the session refuses to read, because the record has ended or because a number in it is
too long to be converted, leaves the session as it was.
-/

namespace ControlFile

/-- Where a session stands in its record. -/
inductive Phase where
  /-- In no block. -/
  | idle
  /-- In a description with this first line and these other lines, the latest one first. -/
  | description (summary : Text) (body : List Text)
  /-- In a list of configuration files. -/
  | conffiles
  /-- At the end of the record. -/
  | finished
  deriving DecidableEq, Repr

/-- The field whose block is open. -/
def Phase.block? : Phase → Option Field
  | .description .. => some .description
  | .conffiles => some .conffiles
  | .idle | .finished => none

/-- What a line means for its record. -/
inductive Outcome where
  /-- The record goes on. -/
  | goesOn
  /-- The record goes on, but a recognised field in the line was malformed. -/
  | malformed
  /-- The line ended the record. -/
  | ended
  /-- The line could not be read. -/
  | refused (cause : Error)
  deriving DecidableEq, Repr

/-- A session: a record, the fields to populate, and the place in the record. -/
structure Session where
  package : Package
  /-- The fields to populate. -/
  mask : FieldSet
  /-- The priorities of the architectures. -/
  architectures : List ArchPriority
  phase : Phase := .idle
  deriving DecidableEq

/-- What became of a session that read a line. -/
structure Fed where
  session : Session
  outcome : Outcome
  events : List Event := []

namespace Session

/-- A session for a record that populates what is requested and not forced off. -/
def start (package : Package) (requested : FieldSet) (config : Config) : Session :=
  { package, mask := .effective requested config.forced, architectures := config.architectures }

/-- Whether a description is being collected. -/
def readingDescription (s : Session) : Bool := s.phase.block? = some .description

/-- Whether a list of configuration files is being read. -/
def readingConffiles (s : Session) : Bool := s.phase.block? = some .conffiles

/-- Whether the record has ended. -/
def finished (s : Session) : Bool := s.phase = .finished

/-! ### Blocks -/

/-- The text of a description: its lines with newlines between them. -/
def descriptionText (summary : Text) (body : List Text) : Text :=
  Text.join ['\n'] (summary :: body.reverse)

/-- The session after the end of its open block, if there is one. A description is stored. -/
def close (s : Session) : Session :=
  match s.phase with
  | .description summary body =>
    { s with
      package := { s.package with description := some (descriptionText summary body) }
      phase := .idle }
  | .conffiles => { s with phase := .idle }
  | .idle | .finished => s

/-- Whether a line belongs to the open block: it starts with a space, and the field of the block is
selected. -/
def isBody (s : Session) (line : Text) : Bool :=
  line.head? = some ' ' &&
    match s.phase.block? with
    | some f => f ∈ s.mask
    | none => false

/-- The session after a line of its open block. -/
def feedBody (s : Session) (line : Text) : Fed :=
  match s.phase with
  | .description summary body =>
    { session := { s with phase := .description summary (line :: body) }, outcome := .goesOn }
  | _ =>
    let built := s.package.addConffile line
    { session := { s with package := built.package }
      outcome := if built.accepted then .goesOn else .malformed
      events := built.events }

/-! ### Other lines -/

/-- The session after a line that is no selected header. A blank line ends the record. -/
def feedPlain (s : Session) (line : Text) : Fed :=
  if line.allBlank then { session := { s.close with phase := .finished }, outcome := .ended }
  else { session := s.close, outcome := .goesOn }

/-- The session after the header of a field on one line. -/
def feedSingle (s : Session) (slot : Slot) (value : Text) : Fed :=
  match s.package.put s.architectures slot value with
  -- The block that was open ends with this line, also if the value is not accepted.
  | .ok built =>
    { session := { s with package := built.package }.close
      outcome := if built.accepted then .goesOn else .malformed
      events := built.events }
  | .error cause => { session := s, outcome := .refused cause }

/-- The session after a header with this value. -/
def feedHeader (s : Session) (h : Header) (value : Text) : Fed :=
  match h.field.kind with
  | .single slot => s.feedSingle slot value
  | .description =>
    { session := { s.close with phase := .description value [] }, outcome := .goesOn }
  | .conffiles => { session := { s.close with phase := .conffiles }, outcome := .goesOn }

/-- The session after a line outside the open block. The headers passed over as not selected are
logged first. -/
def feedOutside (s : Session) (line : Text) : Fed :=
  let (header?, skipped) := Header.recognise s.mask line
  let fed := match header? with
    | some h => s.feedHeader h (Header.valueAfter h.name line)
    | none => s.feedPlain line
  -- The log calls the record by the name that it had before this line.
  { fed with events := skipped.map (.maskedField ·.name s.package.name) ++ fed.events }

/-- The session after a line, which stands without its newline. -/
def feed (s : Session) (line : Text) : Fed :=
  if s.finished then { session := s, outcome := .refused .sessionFinished }
  else if s.isBody line then s.feedBody line
  else s.feedOutside line

/-- The session at the end of its record. -/
def finish (s : Session) : Session := { s.close with phase := .finished }

end Session

end ControlFile

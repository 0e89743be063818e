import ControlFile.Attribute
import ControlFile.Error

/-!
# Log events

What reading and reporting note on their way, by cause. An event never changes a result: the value
that is read and the events that reading it gives are computed by separate functions, and the
functions that do both return the events beside the result.

`Event.level` says how serious an event is, `Event.message` is its wording. Only a malformed value
and a failed read are errors.
-/

namespace ControlFile

/-- How serious an event is. -/
inductive Level where
  | debug | info | warning | error
  deriving DecidableEq, Repr

/-- Something worth a line in the log. A `package` is the name of the record being read, if it has
one yet. -/
inductive Event where
  /-- A want state has no known name and counts as unknown. -/
  | unknownWant (word : Text)
  /-- A state flag has no known name and is left out. -/
  | unknownFlag (word : Text)
  /-- A stage has no known name and counts as not installed. -/
  | unknownStage (word : Text)
  /-- The text before the first colon of a version is no number, and is dropped. -/
  | invalidEpoch (package : Option Text) (epoch version : Text)
  /-- A status was malformed and the record keeps its old one. -/
  | badStatus (package : Option Text) (cause : Malformed)
  /-- A line of a list of configuration files was malformed and is left out. -/
  | badConffile (package : Option Text) (cause : Malformed)
  /-- A number was malformed and the record keeps its old one. -/
  | badNumber (number : NumberAttribute) (package : Option Text) (cause : Malformed)
  /-- A field is not selected and its line is passed over. -/
  | maskedField (header : Text) (package : Option Text)
  /-- The last line of a source has no newline. -/
  | missingNewline (source : Text)
  /-- A source could not be read on. -/
  | readFailed (cause : Error)
  /-- A record was read, with its version if it has one. -/
  | recordRead (name : Text) (version : Option Text)
  /-- A file was read to its end. -/
  | fileRead (count : Nat) (path : Text)
  deriving DecidableEq, Repr

/-- The name of a record in a message. -/
def packageName (package : Option Text) : String := (package.map Text.str).getD "None"

def Event.level : Event → Level
  | .badStatus .. | .badConffile .. | .badNumber .. | .readFailed .. => .error
  | .invalidEpoch .. | .missingNewline .. => .warning
  | .fileRead .. => .info
  | .unknownWant .. | .unknownFlag .. | .unknownStage .. | .maskedField .. | .recordRead .. =>
    .debug

def Event.message : Event → String
  | .unknownWant word => s!"Unrecognized want state '{word.str}', using 'unknown'"
  | .unknownFlag word => s!"Ignoring unrecognized state flag '{word.str}'"
  | .unknownStage word => s!"Unrecognized status '{word.str}', using 'not-installed'"
  | .invalidEpoch package epoch version =>
    s!"{packageName package}: invalid epoch '{epoch.str}' in version '{version.str}'"
  | .badStatus package cause =>
    s!"Failed to parse Status line for {packageName package}: {cause.message}"
  | .badConffile package cause =>
    s!"Failed to parse Conffiles line for {packageName package}: {cause.message}"
  | .badNumber number package cause =>
    s!"Failed to parse {number.key} for {packageName package}: {cause.message}"
  | .maskedField header package =>
    s!"Skipping masked field {header.str} for {packageName package}"
  | .missingNewline source => s!"{source.str}: missing newline character at end of file"
  | .readFailed cause => s!"Failed to read control data: {cause.message}"
  | .recordRead name version =>
    (Text.trimEnd ("Parsed package ".toList ++ name ++ ' ' :: version.getD [])).str
  | .fileRead count path => s!"Read {count} package(s) from {path.str}"

end ControlFile

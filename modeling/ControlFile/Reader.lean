import ControlFile.File
import ControlFile.Record
import ControlFile.Settings

/-!
# Reading with the shared configuration

The ways into a reader that leave the configuration open: whoever gives none gets the shared one of
the process, loaded if need be. Each of them returns the settings afterwards beside its result, and
a load that fails is the failure of the reading.
-/

namespace ControlFile

/-- Reads the records of the file with this path and these octets. -/
def readPath (requested : FieldSet) (config : Config) (path : Text) (octets : List UInt8) : Trace :=
  readStream requested config (Stream.ofFile path octets) (Path.normal path)

namespace Settings

/-- A source of the lines of a stream. A limit of zero stands for that of the shared
configuration. -/
def open? (s : Settings) (stream : Stream) (limit : Int) (name : Text) :
    Except Error Source × Settings :=
  if limit = 0 then
    s.withConfig none (fun c => .ok (.ofStream stream c.lineLimit name)) .error
  else (.ok (.ofStream stream limit name), s)

/-- Reads one record from a source into a package. -/
def readRecord (s : Settings) (config? : Option Config) (package : Package) (requested : FieldSet)
    (source : Source) : Reading × Settings :=
  s.withConfig config? (fun c => ControlFile.readRecord package requested c source) fun cause =>
    { verdict := .stopped cause, package, source, events := [] }

/-- Reads the records of a source to its end. -/
def readAll (s : Settings) (config? : Option Config) (requested : FieldSet) (source : Source) :
    Trace × Settings :=
  s.withConfig config? (fun c => ControlFile.readAll requested c source) .ofError

/-- Reads the records of a text. -/
def readText (s : Settings) (config? : Option Config) (requested : FieldSet) (text : Text) :
    Trace × Settings :=
  s.withConfig config? (fun c => ControlFile.readText requested c text) .ofError

/-- Reads the records of a file. Where there is no file there are no octets, which shows before the
configuration is needed. -/
def readPath (s : Settings) (config? : Option Config) (requested : FieldSet) (path : Text)
    (octets? : Option (List UInt8)) : Trace × Settings :=
  match octets? with
  | none => (.ofError (Path.openError path), s)
  | some octets =>
    s.withConfig config? (fun c => ControlFile.readPath requested c path octets) .ofError

end Settings

end ControlFile

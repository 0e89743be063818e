import ControlFile.Architecture
import ControlFile.Package.Basic

/-!
# Building a record

How the value of one line changes a record. A later text, number, version, status or architecture
replaces an earlier one, and relations and configuration files are appended to those already there.

A builder gives a `Built`: the new record, whether the value was accepted, and the events to log. A
malformed value is not accepted, changes nothing, and gives one error event. The only value that a
builder cannot deal with is a decimal number too long to be converted, which is an `Error`.
-/

namespace ControlFile

/-- What became of a record. -/
structure Built where
  package : Package
  /-- Whether the value was accepted. -/
  accepted : Bool := true
  events : List Event := []

namespace Package

/-- The record with a new version. -/
def putVersion (p : Package) (value : Text) : Except Error Built :=
  (Version.ofText? value).map fun v =>
    { package := { p with epoch := v.epoch, version := some v.base, revision := v.revision }
      events := Version.remarks p.name value }

/-- The record with a new status. -/
def putStatus (p : Package) (value : Text) : Built :=
  match Status.ofText? value with
  | .ok s =>
    { package := { p with want := some s.want, flags := some s.flags, stage := some s.stage }
      events := Status.remarks value }
  | .error cause => { package := p, accepted := false, events := [.badStatus p.name cause] }

/-- The record with the configuration file of a line at the end of its list. -/
def addConffile (p : Package) (line : Text) : Built :=
  match Conffile.ofLine? line with
  | .ok c => { package := { p with conffiles := p.conffiles ++ [c] } }
  | .error cause => { package := p, accepted := false, events := [.badConffile p.name cause] }

/-- The record with a new number. -/
def putNumber (p : Package) (target : NumberAttribute) (value : Text) : Except Error Built :=
  match Numeral.readUnsigned value with
  | .ok n => .ok { package := p.setNumber target (some n) }
  | .error (.malformed cause) =>
    .ok { package := p, accepted := false, events := [.badNumber target p.name cause] }
  | .error e => .error e

/-- The record with the relations of a list, which has commas between them, after those that it
has. -/
def extendRelation (p : Package) (target : Relation) (value : Text) : Built :=
  { package := p.setRelation target (p.getRelation target ++ value.items ',') }

/-- The record with a new architecture, and the priority of that architecture. -/
def putArchitecture (p : Package) (arch : Text) (entries : List ArchPriority) : Built :=
  { package :=
      { p with architecture := some arch, archPriority := ArchPriority.lookup arch entries } }

/-- The record with a switch turned on by the word `yes`. No value turns a switch off. -/
def putSwitch (p : Package) (target : Switch) (value : Text) : Built :=
  { package := if value = "yes".toList then p.setSwitch target true else p }

/-- The record with a value stored in the slot of its field. -/
def put (p : Package) (entries : List ArchPriority) (slot : Slot) (value : Text) :
    Except Error Built :=
  match slot with
  | .text target => .ok { package := p.setText target (some value) }
  | .number target => p.putNumber target value
  | .switch target => .ok (p.putSwitch target value)
  | .relation target => .ok (p.extendRelation target value)
  | .architecture => .ok (p.putArchitecture value entries)
  | .version => p.putVersion value
  | .status => .ok (p.putStatus value)

end Package

end ControlFile

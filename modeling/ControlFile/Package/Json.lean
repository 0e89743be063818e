import ControlFile.Package.Basic
import ControlFile.Text.Quoted

/-!
# Writing a record as JSON

A record is written as one object without spaces. Its members are the attributes in the order of the
record; absent ones are left out, and empty lists are not absent. States are written as their
numbers.

`Json.string` writes a text: the quote, the backslash and the controls of ASCII are escaped, and all
other characters stand for themselves.
-/

namespace ControlFile

namespace Json

/-- One character in a string. -/
def escape (c : Char) : Text :=
  if c = '"' then ['\\', '"']
  else if c = '\\' then ['\\', '\\']
  else if c.toNat = 0x08 then ['\\', 'b']
  else if c = '\t' then ['\\', 't']
  else if c = '\n' then ['\\', 'n']
  else if c.toNat = 0x0C then ['\\', 'f']
  else if c = '\r' then ['\\', 'r']
  else if c.toNat < 0x20 then '\\' :: 'u' :: hexDigits 4 c.toNat
  else [c]

/-- A text. -/
def string (t : Text) : Text := '"' :: t.flatMap escape ++ ['"']

/-- A truth value. -/
def bool (b : Bool) : Text := if b then "true".toList else "false".toList

/-- An array of written values. -/
def array (values : List Text) : Text := '[' :: Text.join [','] values ++ [']']

/-- An object of written values. -/
def object (members : List (String × Text)) : Text :=
  let written := members.map fun (key, value) => string key.toList ++ ':' :: value
  '\x7b' :: Text.join [','] written ++ ['\x7d']

/-- An array of texts. -/
def strings (ts : List Text) : Text := array (ts.map string)

end Json

/-- The object of a configuration file. -/
def Conffile.json (c : Conffile) : Text :=
  Json.object [("path", Json.string c.path), ("md5sum", Json.string c.md5sum)]

namespace Package

/-- The attributes of a record with their written values, where they are not absent. -/
def jsonMembers (p : Package) : List (String × Option Text) :=
  [("name", p.name.map Json.string),
    ("architecture", p.architecture.map Json.string),
    ("arch_priority", some (Numeral.signed p.archPriority)),
    ("epoch", some (Numeral.signed p.epoch)),
    ("version", p.version.map Json.string),
    ("revision", p.revision.map Json.string),
    ("state_want", p.want.map fun w => Numeral.decimal w.code),
    ("state_flag", p.flags.map fun s => Numeral.decimal s.code),
    ("state_status", p.stage.map fun s => Numeral.decimal s.code),
    ("size", p.size.map Numeral.signed),
    ("installed_size", p.installedSize.map Numeral.signed),
    ("installed_time", p.installedTime.map Numeral.signed),
    ("maintainer", p.maintainer.map Json.string),
    ("section", p.sectionName.map Json.string),
    ("source", p.source.map Json.string),
    ("tags", p.tags.map Json.string),
    ("priority", p.priority.map Json.string),
    ("filename", p.filename.map Json.string),
    ("md5sum", p.md5sum.map Json.string),
    ("sha256sum", p.sha256sum.map Json.string),
    ("depends", some (Json.strings p.depends)),
    ("pre_depends", some (Json.strings p.preDepends)),
    ("recommends", some (Json.strings p.recommends)),
    ("suggests", some (Json.strings p.suggests)),
    ("conflicts", some (Json.strings p.conflicts)),
    ("replaces", some (Json.strings p.replaces)),
    ("provides", some (Json.strings p.provides)),
    ("description", p.description.map Json.string),
    ("conffiles", some (Json.array (p.conffiles.map Conffile.json))),
    ("essential", some (Json.bool p.essential)),
    ("auto_installed", some (Json.bool p.autoInstalled))]

/-- The object of a record. -/
def json (p : Package) : Text :=
  Json.object (p.jsonMembers.filterMap fun (key, value?) => value?.map (key, ·))

end Package

end ControlFile

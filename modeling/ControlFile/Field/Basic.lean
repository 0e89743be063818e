import ControlFile.Attribute
import ControlFile.Text.UpperCase

/-!
# Control fields

The twenty-six recognised fields of a control file. A field has a name as it is written in a file
(`Field.name`), a key under which a user selects it (`Field.key`), and a kind that says which
attributes of a record it fills (`Field.kind`). Names are compared exactly, keys after `foldKey`,
which makes case and the choice between hyphen and underscore irrelevant.
-/

namespace ControlFile

/-- A recognised field, in the order in which fields are listed. -/
inductive Field where
  | architecture | autoInstalled | conffiles | conflicts | description | depends | essential
  | filename | installedSize | installedTime | md5sum | maintainer | package | priority | provides
  | preDepends | recommends | replaces | sectionName | sha256sum | size | source | status
  | suggests | tags | version
  deriving DecidableEq, Repr

/-- Where the value of a field of one line is stored. -/
inductive Slot where
  | text (target : TextAttribute)
  | number (target : NumberAttribute)
  | switch (target : Switch)
  | relation (target : Relation)
  | architecture
  | version
  | status
  deriving DecidableEq, Repr

/-- What a field holds: a value on its own line, or a block of lines. -/
inductive Kind where
  | single (slot : Slot)
  | description
  | conffiles
  deriving DecidableEq, Repr

/-- The key of a name: in upper case, with underscores for hyphens. -/
def foldKey (name : Text) : Text := name.upper.replace '-' '_'

namespace Field

/-- Every field, in order. -/
def all : List Field :=
  [.architecture, .autoInstalled, .conffiles, .conflicts, .description, .depends, .essential,
    .filename, .installedSize, .installedTime, .md5sum, .maintainer, .package, .priority,
    .provides, .preDepends, .recommends, .replaces, .sectionName, .sha256sum, .size, .source,
    .status, .suggests, .tags, .version]

theorem mem_all (f : Field) : f ∈ all := by cases f <;> decide

/-- The name of a field as it stands at the start of a line. -/
def name : Field → Text
  | .architecture => "Architecture".toList
  | .autoInstalled => "Auto-Installed".toList
  | .conffiles => "Conffiles".toList
  | .conflicts => "Conflicts".toList
  | .description => "Description".toList
  | .depends => "Depends".toList
  | .essential => "Essential".toList
  | .filename => "Filename".toList
  | .installedSize => "Installed-Size".toList
  | .installedTime => "Installed-Time".toList
  | .md5sum => "MD5sum".toList
  | .maintainer => "Maintainer".toList
  | .package => "Package".toList
  | .priority => "Priority".toList
  | .provides => "Provides".toList
  | .preDepends => "Pre-Depends".toList
  | .recommends => "Recommends".toList
  | .replaces => "Replaces".toList
  | .sectionName => "Section".toList
  | .sha256sum => "SHA256sum".toList
  | .size => "Size".toList
  | .source => "Source".toList
  | .status => "Status".toList
  | .suggests => "Suggests".toList
  | .tags => "Tags".toList
  | .version => "Version".toList

/-- The key under which a field is selected. -/
def key (f : Field) : Text := foldKey f.name

/-- What a field holds, and where. -/
def kind : Field → Kind
  | .architecture => .single .architecture
  | .autoInstalled => .single (.switch .autoInstalled)
  | .conffiles => .conffiles
  | .conflicts => .single (.relation .conflicts)
  | .description => .description
  | .depends => .single (.relation .depends)
  | .essential => .single (.switch .essential)
  | .filename => .single (.text .filename)
  | .installedSize => .single (.number .installedSize)
  | .installedTime => .single (.number .installedTime)
  | .md5sum => .single (.text .md5sum)
  | .maintainer => .single (.text .maintainer)
  | .package => .single (.text .name)
  | .priority => .single (.text .priority)
  | .provides => .single (.relation .provides)
  | .preDepends => .single (.relation .preDepends)
  | .recommends => .single (.relation .recommends)
  | .replaces => .single (.relation .replaces)
  | .sectionName => .single (.text .sectionName)
  | .sha256sum => .single (.text .sha256sum)
  | .size => .single (.number .size)
  | .source => .single (.text .source)
  | .status => .single .status
  | .suggests => .single (.relation .suggests)
  | .tags => .single (.text .tags)
  | .version => .single .version

/-- A value that may still carry the name of its field, without the name and without the blanks
around it. -/
def bareValue (f : Field) (value : Text) : Text :=
  Text.trim (Text.dropLead (f.name ++ [':']) value)

end Field

end ControlFile

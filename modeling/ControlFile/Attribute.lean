import ControlFile.Text.Basic

/-!
# Attributes

The attributes of a package record that are stored in the same way: texts, numbers, switches and
lists of relations. Each type names the attributes of one kind, and `key` is the name under which
an attribute appears in messages and in JSON.
-/

namespace ControlFile

/-- An attribute that holds a text. -/
inductive TextAttribute where
  | name | maintainer | sectionName | source | tags | priority | filename | md5sum | sha256sum
  deriving DecidableEq, Repr

/-- An attribute that holds a number. -/
inductive NumberAttribute where
  | size | installedSize | installedTime
  deriving DecidableEq, Repr

/-- An attribute that is on or off. -/
inductive Switch where
  | essential | autoInstalled
  deriving DecidableEq, Repr

/-- An attribute that holds relations to other packages. -/
inductive Relation where
  | depends | preDepends | recommends | suggests | conflicts | replaces | provides
  deriving DecidableEq, Repr

def TextAttribute.key : TextAttribute → String
  | .name => "name"
  | .maintainer => "maintainer"
  | .sectionName => "section"
  | .source => "source"
  | .tags => "tags"
  | .priority => "priority"
  | .filename => "filename"
  | .md5sum => "md5sum"
  | .sha256sum => "sha256sum"

def NumberAttribute.key : NumberAttribute → String
  | .size => "size"
  | .installedSize => "installed_size"
  | .installedTime => "installed_time"

def Switch.key : Switch → String
  | .essential => "essential"
  | .autoInstalled => "auto_installed"

def Relation.key : Relation → String
  | .depends => "depends"
  | .preDepends => "pre_depends"
  | .recommends => "recommends"
  | .suggests => "suggests"
  | .conflicts => "conflicts"
  | .replaces => "replaces"
  | .provides => "provides"

end ControlFile

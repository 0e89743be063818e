import ControlFile.Error

/-!
# Configuration files

A package lists its configuration files, one to a line, each with the checksum it was shipped with.
`Conffile.ofLine?` reads such a line and `Conffile.text` writes it.
-/

namespace ControlFile

/-- A configuration file of a package. -/
structure Conffile where
  path : Text
  md5sum : Text
  deriving DecidableEq, Repr

namespace Conffile

/-- The configuration file of a line, which has to hold two words. -/
def ofLine? (line : Text) : Except Malformed Conffile :=
  match line.words with
  | [path, md5sum] => .ok ⟨path, md5sum⟩
  | words => .error (.conffile words.length line.trim)

/-- The line of a configuration file, without its indentation. -/
def text (c : Conffile) : Text := c.path ++ ' ' :: c.md5sum

/-- Two words make an entry. -/
theorem ofLine?_eq_ok {line path md5sum : Text} (h : line.words = [path, md5sum]) :
    ofLine? line = .ok ⟨path, md5sum⟩ := by
  simp [ofLine?, h]

end Conffile

end ControlFile

import ControlFile.Field.Basic
import ControlFile.Log

/-!
# Stages

Where a package is in its installation. A word that names no stage counts as `Stage.notInstalled`
and is noted in the log. Names are found in any case and with hyphens or underscores
(`Stage.ofText?`), and written in lower case with hyphens (`Stage.word`), so that what is written
is read back (`Stage.ofText_word`).
-/

namespace ControlFile

/-- Where a package is in its installation. -/
inductive Stage where
  | notInstalled | unpacked | halfConfigured | installed | halfInstalled | configFiles
  | postInstFailed | removalFailed
  deriving DecidableEq, Repr

namespace Stage

/-- Every stage, in the order of the codes. -/
def all : List Stage :=
  [.notInstalled, .unpacked, .halfConfigured, .installed, .halfInstalled, .configFiles,
    .postInstFailed, .removalFailed]

/-- The number of a stage. -/
def code : Stage → Nat
  | .notInstalled => 1
  | .unpacked => 2
  | .halfConfigured => 3
  | .installed => 4
  | .halfInstalled => 5
  | .configFiles => 6
  | .postInstFailed => 7
  | .removalFailed => 8

/-- The stage with the given number. -/
def ofCode? (n : Int) : Except Error Stage :=
  match all.find? (·.code = n) with
  | some s => .ok s
  | none => .error (.noSuchStage n)

/-- The word that is written for a stage. -/
def word : Stage → Text
  | .notInstalled => "not-installed".toList
  | .unpacked => "unpacked".toList
  | .halfConfigured => "half-configured".toList
  | .installed => "installed".toList
  | .halfInstalled => "half-installed".toList
  | .configFiles => "config-files".toList
  | .postInstFailed => "post-inst-failed".toList
  | .removalFailed => "removal-failed".toList

/-- The stage that a word names. -/
def ofText? (t : Text) : Option Stage := all.find? (foldKey ·.word = foldKey t)

/-- The stage that a word names, or the first one. -/
def ofText (t : Text) : Stage := (ofText? t).getD .notInstalled

/-- What reading a word notes. -/
def remarks (t : Text) : List Event :=
  match ofText? t with
  | some _ => []
  | none => [.unknownStage t]

@[simp] theorem ofText?_word (s : Stage) : ofText? s.word = some s := by cases s <;> decide

@[simp] theorem ofText_word (s : Stage) : ofText s.word = s := by simp [ofText]

end Stage

end ControlFile

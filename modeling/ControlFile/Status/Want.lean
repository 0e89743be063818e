import ControlFile.Field.Basic
import ControlFile.Log

/-!
# Want states

What the user asked for a package. A word that names no state counts as `Want.unknown` and is noted
in the log; names are found in any case (`Want.ofText?`) and written in lower case
(`Want.word`), so that what is written is read back (`Want.ofText_word`).
-/

namespace ControlFile

/-- What the user asked for a package. -/
inductive Want where
  | unknown | install | deinstall | purge
  deriving DecidableEq, Repr

namespace Want

/-- Every want state, in the order of the codes. -/
def all : List Want := [.unknown, .install, .deinstall, .purge]

/-- The number of a state. -/
def code : Want → Nat
  | .unknown => 1
  | .install => 2
  | .deinstall => 3
  | .purge => 4

/-- The state with the given number. -/
def ofCode? (n : Int) : Except Error Want :=
  match all.find? (·.code = n) with
  | some w => .ok w
  | none => .error (.noSuchWant n)

/-- The word that is written for a state. -/
def word : Want → Text
  | .unknown => "unknown".toList
  | .install => "install".toList
  | .deinstall => "deinstall".toList
  | .purge => "purge".toList

/-- The state that a word names. -/
def ofText? (t : Text) : Option Want := all.find? (·.word.upper = t.upper)

/-- The state that a word names, or the unknown state. -/
def ofText (t : Text) : Want := (ofText? t).getD .unknown

/-- What reading a word notes. -/
def remarks (t : Text) : List Event :=
  match ofText? t with
  | some _ => []
  | none => [.unknownWant t]

@[simp] theorem ofText?_word (w : Want) : ofText? w.word = some w := by cases w <;> decide

@[simp] theorem ofText_word (w : Want) : ofText w.word = w := by simp [ofText]

end Want

end ControlFile

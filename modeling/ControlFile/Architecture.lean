import ControlFile.Numeral.Reader

/-!
# Architecture priorities

Each architecture that can be installed has a priority. A list of them is written as `name:priority`
entries between blanks or commas, and read by `ArchPriority.ofList?`; an entry without a priority
has priority zero. The priority of an architecture is that of the first entry with its name, or zero
(`ArchPriority.lookup`).
-/

namespace ControlFile

/-- An installable architecture and its priority. -/
structure ArchPriority where
  name : Text
  priority : Int := 0
  deriving DecidableEq, Repr

namespace ArchPriority

/-- The priority of the first entry of this name, or zero. -/
def lookup (arch : Text) (entries : List ArchPriority) : Int :=
  ((entries.find? (·.name = arch)).map (·.priority)).getD 0

/-- The priority that a text denotes. The empty text denotes zero. -/
def readPriority? (t : Text) : Option Int := if t = [] then some 0 else Numeral.literal? t

/-- The name and the priority of an entry: what stands before and after its first colon. -/
def split (entry : Text) : Text × Text := (Text.cut? ':' entry).getD (entry, [])

/-- The entry that a word denotes. -/
def ofWord? (entry : Text) : Except Error ArchPriority :=
  let (name, priority) := split entry
  if name = [] then .error (.unnamedArchitecture entry)
  else match readPriority? priority with
    | some n => .ok ⟨name, n⟩
    | none => .error (.badPriority name priority)

/-- The entries of a list, in order. -/
def ofList? (t : Text) : Except Error (List ArchPriority) :=
  (Text.words (t.replace ',' ' ')).mapM ofWord?

@[simp] theorem lookup_nil (arch : Text) : lookup arch [] = 0 := rfl

end ArchPriority

end ControlFile

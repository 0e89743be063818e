import ControlFile.Architecture
import ControlFile.Field.Set

/-!
# Configuration

What every reader shares: the priorities of the architectures, the fields that are never read, and
the length of the longest line, which is positive by construction.

`Config.ofEnvironment?` loads a configuration from the settings of the environment. A setting that
is absent or empty has its default. The line limit is read first, then the architectures, then the
fields; then the limit is checked for being positive, and last the numbers for being writable, since
whoever loads a configuration may want to show it. The first failure is the one reported.
-/

namespace ControlFile

/-- What every reader shares. -/
structure Config where
  architectures : List ArchPriority := [⟨"all".toList, 1⟩, ⟨"noarch".toList, 1⟩]
  forced : FieldSet := .empty
  /-- The most characters that a line may have. -/
  lineLimit : Nat := 1048576
  lineLimit_pos : 0 < lineLimit := by decide
  deriving DecidableEq

/-- The settings of a process: the text of each, if it is set. -/
abbrev Environment := Setting → Option Text

namespace Config

/-- The configuration that holds when nothing is set. -/
def standard : Config := {}

/-- The configuration of these parts. The limit has to be positive. -/
def ofParts? (architectures : List ArchPriority) (forced : FieldSet) (limit : Int) :
    Except Error Config :=
  if h : 0 < limit then
    .ok { architectures, forced, lineLimit := limit.toNat, lineLimit_pos := by omega }
  else .error .lineLimitNotPositive

/-- The text of a setting. An empty text counts as none. -/
def setting? (env : Environment) (s : Setting) : Option Text := (env s).filter (· ≠ [])

/-- The line limit that the environment sets. -/
def readLimit (env : Environment) : Except Error Int :=
  match setting? env .lineLimit with
  | none => .ok standard.lineLimit
  | some t => match Numeral.integer? t with
    | some n => .ok n
    | none => .error (.notAnInteger .lineLimit t)

/-- The architectures that the environment sets. -/
def readArchitectures (env : Environment) : Except Error (List ArchPriority) :=
  match setting? env .architectures with
  | none => .ok standard.architectures
  | some t => ArchPriority.ofList? t

/-- The fields that the environment forces off, whose names have commas between them. -/
def readForced (env : Environment) : Except Error FieldSet :=
  match setting? env .forcedFields with
  | none => .ok standard.forced
  | some t => FieldSet.ofNames? (t.splitOn ',')

/-- Whether the numbers of a configuration are short enough to be written in decimal. -/
def isWritable (c : Config) : Bool :=
  Numeral.fits c.lineLimit && c.architectures.all (Numeral.fits ·.priority)

/-- The configuration that the environment sets. -/
def ofEnvironment? (env : Environment) : Except Error Config := do
  let limit ← readLimit env
  let architectures ← readArchitectures env
  let forced ← readForced env
  let config ← ofParts? architectures forced limit
  if config.isWritable then pure config else .error .numberTooLong

/-- A configuration that was loaded can be written. -/
theorem isWritable_of_ofEnvironment? {env : Environment} {c : Config}
    (h : ofEnvironment? env = .ok c) : c.isWritable = true := by
  simp only [ofEnvironment?, bind, Except.bind, pure, Except.pure] at h
  repeat' split at h
  all_goals simp_all

end Config

end ControlFile

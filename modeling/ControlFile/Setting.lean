/-!
# Settings

Three settings come from the environment of the process: the priorities of the architectures, the
fields that are never read, and the length of the longest line. `Setting.variableName` is the name
of the environment variable that holds a setting.
-/

namespace ControlFile

/-- A setting that the environment may hold. -/
inductive Setting where
  /-- The installable architectures with their priorities. -/
  | architectures
  /-- The fields that are never read. -/
  | forcedFields
  /-- The length of the longest line. -/
  | lineLimit
  deriving DecidableEq, Repr

/-- The environment variable of a setting. -/
def Setting.variableName : Setting → String
  | .architectures => "PKGREADER_ARCH_LIST"
  | .forcedFields => "PKGREADER_FORCED_MASK"
  | .lineLimit => "PKGREADER_MAX_LINE_LEN"

end ControlFile

import ControlFile.Error

/-!
# Faults of compressed data

A decoder stops at a fault: its data ends too early, or breaks a rule. A broken rule is noticed at a
position, which is the number of bits that had to be read for that.
-/

namespace ControlFile

/-- Why a decoder stops. -/
inductive Fault where
  /-- The data ends. -/
  | endsEarly
  /-- The data breaks a rule, which shows once the bits up to this position are known. -/
  | broken (reason : String) (position : Nat)
  deriving DecidableEq, Repr

/-- The damage that a fault reveals. -/
def Fault.damage : Fault → Damage
  | .endsEarly => .endsEarly
  | .broken reason _ => .badBlock reason

end ControlFile

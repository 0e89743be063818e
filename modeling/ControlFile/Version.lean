import ControlFile.Field.Basic
import ControlFile.Log
import ControlFile.Numeral.Printer
import ControlFile.Numeral.Reader

/-!
# Versions

A version is written `epoch:base-revision`, where the epoch and the revision may be absent. It is
read by two independent cuts: what stands before the first colon is the epoch, and what stands after
the last hyphen of the rest is the revision. So the base may hold colons if there is an epoch, and
hyphens if there is a revision.

* `Version.ofText?` reads a version; it fails only for an epoch too long to be converted. An epoch
  that is no number is dropped and noted in the log (`Version.remarks`).
* `Version.text` writes a version; an epoch of zero is not written. `Version.text?` refuses an epoch
  that is too long.
-/

namespace ControlFile

/-- A version, divided into its parts. -/
structure Version where
  epoch : Int := 0
  base : Text := []
  revision : Option Text := none
  deriving DecidableEq, Repr

namespace Version

/-- The version with this epoch whose other parts are divided at the last hyphen. -/
def ofParts (epoch : Int) (t : Text) : Version :=
  match Text.cutLast? '-' t with
  | some (base, revision) => ⟨epoch, base, some revision⟩
  | none => ⟨epoch, t, none⟩

/-- The number of an epoch. A text that is no number counts as no epoch. -/
def readEpoch (t : Text) : Except Error Nat :=
  if Numeral.isDecimalText t then Numeral.readDecimal t else .ok 0

/-- The version that a text denotes. The text may still carry the name of its field. -/
def ofText? (value : Text) : Except Error Version :=
  let t := Field.bareValue .version value
  match Text.cut? ':' t with
  -- The text before the colon is no part of the base, whether it is a number or not.
  | some (epoch, rest) => (readEpoch epoch).map fun n => ofParts n rest
  | none => .ok (ofParts 0 t)

/-- What reading a version notes. -/
def remarks (package : Option Text) (value : Text) : List Event :=
  let t := Field.bareValue .version value
  match Text.cut? ':' t with
  | some (epoch, _) =>
    if Numeral.isDecimalText epoch then [] else [.invalidEpoch package epoch t]
  | none => []

/-- The only remark on a version is that its epoch is no number. -/
theorem eq_of_mem_remarks {package : Option Text} {value : Text} {e : Event}
    (he : e ∈ remarks package value) : ∃ epoch text, e = .invalidEpoch package epoch text := by
  unfold remarks at he
  grind

/-- The epoch and its colon, which an epoch of zero has not. -/
def epochText (epoch : Int) : Text :=
  if epoch = 0 then [] else Numeral.signed epoch ++ [':']

/-- The hyphen and the revision, if there is one. -/
def revisionText : Option Text → Text
  | none => []
  | some revision => '-' :: revision

/-- The text of a version. -/
def text (v : Version) : Text := epochText v.epoch ++ v.base ++ revisionText v.revision

/-- The text of a version, unless its epoch is too long to be written. -/
def text? (v : Version) : Except Error Text := (Numeral.signed? v.epoch).map fun _ => v.text

end Version

end ControlFile

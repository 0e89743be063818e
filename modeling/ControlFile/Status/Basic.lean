import ControlFile.Status.Flag
import ControlFile.Status.Stage
import ControlFile.Status.Want

/-!
# Package status

The state of a package is a triple of words: what the user asked for, a set of flags, and the
stage of its installation. `Status.ofText?` reads one; it needs exactly three words, and then cannot
fail, because each word has a meaning (`Status.ofText?_eq_ok`). `Status.text` writes one.
-/

namespace ControlFile

/-- The state of a package. -/
structure Status where
  want : Want
  flags : FlagSet
  stage : Stage
  deriving DecidableEq

namespace Status

/-- The words of a status, which may still carry the name of its field. -/
def words (value : Text) : List Text := Text.words (Field.bareValue .status value)

/-- The status that a text denotes. -/
def ofText? (value : Text) : Except Malformed Status :=
  match words value with
  | [want, flags, stage] => .ok ⟨.ofText want, .ofText flags, .ofText stage⟩
  | ws => .error (.status ws.length value)

/-- What reading a status notes. -/
def remarks (value : Text) : List Event :=
  match words value with
  | [want, flags, stage] => Want.remarks want ++ FlagSet.remarks flags ++ Stage.remarks stage
  | _ => []

/-- The remarks on a status are that words of it have no meaning. -/
theorem eq_of_mem_remarks {value : Text} {e : Event} (he : e ∈ remarks value) :
    ∃ word, e = .unknownWant word ∨ e = .unknownFlag word ∨ e = .unknownStage word := by
  unfold remarks Want.remarks FlagSet.remarks Stage.remarks at he
  grind

/-- The text that is written for a status. -/
def text (s : Status) : Text := Text.join [' '] [s.want.word, s.flags.text, s.stage.word]

/-- Three words make a status. -/
theorem ofText?_eq_ok {value want flags stage : Text} (h : words value = [want, flags, stage]) :
    ofText? value = .ok ⟨.ofText want, .ofText flags, .ofText stage⟩ := by
  simp [ofText?, h]

end Status

end ControlFile

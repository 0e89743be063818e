import ControlFile.Proofs.Step

/-!
# What is done to a session

The owner of a session does more with it than feeding lines. The record can be ended, other fields can be
selected while a block is open, and the record is a value that can be changed past the session. A run of
a session is a list of such actions in any order (`Session.performAll`), refused lines among them.

What holds at the start of a run and is kept by each of its actions holds at its end
(`Session.performAll_invariant`).
-/

namespace ControlFile

/-- What is done to a session. -/
inductive Action where
  /-- A line is fed to it. -/
  | feed (line : Text)
  /-- The record is ended where the input ends. -/
  | finish
  /-- Other fields are selected. -/
  | select (mask : FieldSet)
  /-- The record is changed past the session. -/
  | edit (change : Package → Package)

namespace Session

/-- The session after an action. -/
def perform (s : Session) : Action → Session
  | .feed line => (s.feed line).session
  | .finish => s.finish
  | .select mask => { s with mask }
  | .edit change => { s with package := change s.package }

/-- The session after some actions, in order. -/
def performAll (s : Session) (actions : List Action) : Session := actions.foldl perform s

/-- The lines of the description that is not stored yet, in order. -/
def pending? (s : Session) : Option (List Text) :=
  match s.phase with
  | .description summary body => some (summary :: body.reverse)
  | .idle | .conffiles | .finished => none

variable {s : Session} {actions : List Action}

@[simp] theorem performAll_nil (s : Session) : s.performAll [] = s := rfl

@[simp] theorem performAll_cons (s : Session) (a : Action) (actions : List Action) :
    s.performAll (a :: actions) = (s.perform a).performAll actions := rfl

/-- **Invariants of a run.** -/
theorem performAll_invariant {I : Session → Prop} (hs : I s)
    (hperform : ∀ a ∈ actions, ∀ s, I s → I (s.perform a)) : I (s.performAll actions) := by
  induction actions generalizing s with
  | nil => exact hs
  | cons a actions ih =>
    rw [performAll_cons]
    -- The invariant is carried from the front, so the induction is for any session.
    apply ih
    · exact hperform a List.mem_cons_self s hs
    · intro b hb
      exact hperform b (List.mem_cons_of_mem a hb)

/-- The end of a block stores the description that is pending, and changes nothing else in the record. -/
theorem close_package (s : Session) :
    s.close.package =
      { s.package with
        description := (s.pending?.map (Text.join ['\n'])).or s.package.description } := by
  unfold close pending?
  cases s.phase <;> rfl

end Session

end ControlFile

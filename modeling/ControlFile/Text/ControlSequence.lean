import ControlFile.Text.Basic

/-!
# Control sequences

A text may hold control sequences, by which a terminal sets colours or moves its cursor: an escape
character and an opening bracket, then parameters, which are digits, semicolons and question marks,
and then a letter, where digits and letters are those of ASCII. What is written elsewhere than to a
terminal is written without them.

`Text.withoutControls` removes them in one pass from left to right, so that a sequence which only
comes about by the removal of another one stays. A text without escape characters is kept as it is
(`Text.withoutControls_of_not_mem`).
-/

namespace ControlFile

/-- The character that control sequences start with. -/
def escapeCharacter : Char := '\x1b'

/-- A character of the parameters of a control sequence. -/
def isControlParameter (c : Char) : Bool := c.isDigit || c = ';' || c = '?'

namespace Text

/-- The text after the control sequence that it starts with, if it starts with one. -/
def afterControl? (t : Text) : Option Text :=
  match t with
  | e :: '[' :: t =>
    if e = escapeCharacter then
      match t.dropWhile isControlParameter with
      | c :: rest => if c.isAlpha then some rest else none
      | [] => none
    else none
  | _ => none

theorem length_lt_of_afterControl? {t rest : Text} (h : afterControl? t = some rest) :
    rest.length < t.length := by
  unfold afterControl? at h
  split at h
  · rename_i e t
    split at h
    · split at h
      · rename_i c rest' hdrop
        split at h
        · have := (List.dropWhile_suffix isControlParameter (l := t)).length_le
          rw [hdrop] at this
          rw [← Option.some.inj h]
          simp only [List.length_cons] at this ⊢
          omega
        · simp at h
      · simp at h
    · simp at h
  · simp at h

/-- What starts otherwise than with an escape character starts with no control sequence. -/
theorem afterControl?_cons_of_ne {c : Char} (t : Text) (h : c ≠ escapeCharacter) :
    afterControl? (c :: t) = none := by
  unfold afterControl?
  split
  · rename_i heq
    obtain ⟨rfl, rfl⟩ := List.cons.inj heq
    exact if_neg h
  · rfl

/-- The text `t` without control sequences, after the characters of `done`, which are the latest
first. -/
def withoutControlsFrom (t done : Text) : Text :=
  match t with
  | [] => done.reverse
  | c :: t =>
    match _h : afterControl? (c :: t) with
    | some rest => withoutControlsFrom rest done
    | none => withoutControlsFrom t (c :: done)
termination_by t.length
decreasing_by
  · exact length_lt_of_afterControl? _h
  · exact Nat.lt_succ_self _

/-- The text without control sequences. -/
def withoutControls (t : Text) : Text := withoutControlsFrom t []

theorem withoutControlsFrom_of_not_mem {t : Text} (done : Text) (h : escapeCharacter ∉ t) :
    withoutControlsFrom t done = done.reverse ++ t := by
  induction t generalizing done with
  | nil => simp [withoutControlsFrom]
  | cons c t ih =>
    have hc : c ≠ escapeCharacter := fun e => h (e ▸ List.mem_cons_self)
    have ht : escapeCharacter ∉ t := fun ht => h (List.mem_cons_of_mem c ht)
    unfold withoutControlsFrom
    split
    · rename_i hrest
      rw [afterControl?_cons_of_ne t hc] at hrest
      exact absurd hrest (by simp)
    · simp [ih _ ht]

/-- A text without escape characters is kept as it is. -/
theorem withoutControls_of_not_mem {t : Text} (h : escapeCharacter ∉ t) : t.withoutControls = t :=
  withoutControlsFrom_of_not_mem [] h

end Text

end ControlFile

import ControlFile.Proofs.Refusal

/-!
# The lines of one record

`Session.feedAll` gives lines to one session, one after the other. Every line has to be read; since a
session refuses any line after the end of its record, the lines are those of one record, whether it has
ended with them or not.

Lines can be divided anywhere (`Session.feedAll_append_eq_ok`), and the first of them is a step
(`Session.feedAll_cons_eq_ok`), so that what a line does is carried over to all lines by an induction on
them. None of the lines has a value that would be refused (`Session.refusal?_of_feedAll`).
-/

namespace ControlFile

namespace Session

/-- The session after these lines, all of which it has to read. -/
def feedAll (s : Session) : List Text → Except Error Session
  | [] => .ok s
  | line :: lines =>
    match (s.feed line).outcome with
    | .refused cause => .error cause
    | .goesOn | .malformed | .ended => (s.feed line).session.feedAll lines

variable {s s' s'' : Session} {line : Text} {lines before after : List Text} {o : Outcome}

/-- Lines that are read leave a session, also where it is only checked that they are read. -/
theorem exists_feedAll_eq_ok (h : (s.feedAll lines).toOption.isSome = true) :
    ∃ s', s.feedAll lines = .ok s' := by
  cases hs : s.feedAll lines with
  | ok s' => exact ⟨s', rfl⟩
  | error cause =>
    rw [hs] at h
    cases h

/-- A line that is not refused goes on with the record or ends it. -/
theorem Step.ended_or_goesOn (h : s.Step line s' o) (ho : ∀ cause, o ≠ .refused cause) :
    o = .ended ∧ s'.finished = true ∨ (o = .goesOn ∨ o = .malformed) ∧ s'.finished = false := by
  cases o with
  | ended =>
    left
    -- A line that ends the record is empty: no other line gives this outcome.
    generalize hended : Outcome.ended = o at h
    cases h with
    | blank => exact ⟨rfl, rfl⟩
    | file | single => split at hended <;> cases hended
    | late | text | other | refused | description | conffiles => cases hended
  | refused cause => exact absurd rfl (ho cause)
  | goesOn => exact .inr ⟨.inl rfl, h.not_finished (.inl rfl)⟩
  | malformed => exact .inr ⟨.inr rfl, h.not_finished (.inr rfl)⟩

/-- Lines are read if the first one is and the others are from where it leads. -/
theorem feedAll_cons_eq_ok :
    s.feedAll (line :: lines) = .ok s'' ↔
      ∃ s' o, s.Step line s' o ∧ (∀ cause, o ≠ .refused cause) ∧ s'.feedAll lines = .ok s'' := by
  rw [feedAll]
  constructor
  · intro h
    refine ⟨_, _, s.feed_step line, ?_⟩
    split at h
    · cases h
    all_goals
      rename_i ho
      exact ⟨by simp [ho], h⟩
  · rintro ⟨s', o, hstep, ho, h⟩
    obtain ⟨rfl, rfl⟩ := hstep.feed_eq
    split
    · rename_i cause hcause
      exact absurd hcause (ho cause)
    all_goals exact h

/-- Lines can be divided anywhere: the first part leads to a session that reads the second. -/
theorem feedAll_append_eq_ok :
    s.feedAll (before ++ after) = .ok s'' ↔
      ∃ s', s.feedAll before = .ok s' ∧ s'.feedAll after = .ok s'' := by
  induction before generalizing s with
  | nil => simp [feedAll]
  | cons line before ih =>
    rw [List.cons_append]
    simp only [feedAll_cons_eq_ok, ih]
    constructor
    · rintro ⟨s₁, o, hstep, ho, s', hbefore, hafter⟩
      exact ⟨s', ⟨s₁, o, hstep, ho, hbefore⟩, hafter⟩
    · rintro ⟨s', ⟨s₁, o, hstep, ho, hbefore⟩, hafter⟩
      exact ⟨s₁, o, hstep, ho, s', hbefore, hafter⟩

/-- A finished session reads no line. -/
theorem eq_nil_of_feedAll (hs : s.finished = true) (h : s.feedAll lines = .ok s') :
    lines = [] ∧ s' = s := by
  cases lines with
  | nil => exact ⟨rfl, (Except.ok.inj h).symm⟩
  | cons line lines =>
    -- A line after the end is refused, which the first of the lines was not.
    obtain ⟨s₁, o, hstep, ho, -⟩ := feedAll_cons_eq_ok.1 h
    have hlate := (Step.late hs : s.Step line s _).feed_eq.2
    rw [hstep.feed_eq.2] at hlate
    exact absurd hlate (ho _)

theorem not_finished_of_feedAll_cons (h : s.feedAll (line :: lines) = .ok s') :
    s.finished = false := by
  cases hf : s.finished with
  | false => rfl
  | true => cases (eq_nil_of_feedAll hf h).1

/-- The lines of a record are none of those that would be refused. -/
theorem refusal?_of_feedAll (hs : s.finished = false) (h : s.feedAll lines = .ok s') :
    ∀ line ∈ lines, line.refusal? s.mask = none := by
  induction lines generalizing s with
  | nil => simp
  | cons line lines ih =>
    obtain ⟨s₁, o, hstep, ho, hlines⟩ := feedAll_cons_eq_ok.1 h
    rw [List.forall_mem_cons]
    refine ⟨hstep.refusal?_eq_none hs ho, ?_⟩
    -- The induction is on the lines, and needs a record that has not ended. After one that has, no line is
    -- left.
    rcases hstep.ended_or_goesOn ho with ⟨-, hf⟩ | ⟨-, hf⟩
    · simp [(eq_nil_of_feedAll hf hlines).1]
    · rw [← hstep.mask_eq]
      exact ih hf hlines

end Session

end ControlFile

import ControlFile.Proofs.Recognition
import ControlFile.Session
import Mathlib.Tactic.SplitIfs

/-!
# One line of a record

`Session.Step` lists what a line can do to a session, with the guard of each rule: it is refused, it
belongs to the open block, it ends the record, it is passed over, or it is the header of a selected
field. The relation and `Session.feed` are the same thing (`Session.feed_eq_iff`), and every invariant
of a session is a case analysis over these rules. Log events are left out: no rule depends on them.

Three consequences are wanted everywhere. The selection and the architectures of a session never
change. A session that goes on has not ended (`Session.Step.not_finished`). And a line is refused for
its own number or for coming too late, never for a reason that a failed source would have
(`Session.Step.not_isReadFailure`).
-/

namespace ControlFile

/-! ### Values that cannot be converted -/

/-- A text is no number for one of two reasons: it does not have the form of one, or it has too many
decimal digits. -/
theorem Numeral.readUnsigned_eq_error {value : Text} {e : Error}
    (h : Numeral.readUnsigned value = .error e) :
    (∃ cause, e = .malformed cause) ∨ ∃ n, e = .tooManyDigits n := by
  unfold readUnsigned readDecimal at h
  -- Decimal digits fail by their number only, other texts by their form only.
  split_ifs at h
  · exact .inr ⟨_, (Except.error.inj h).symm⟩
  · split at h
    · cases h
    · exact .inl ⟨_, (Except.error.inj h).symm⟩

/-- A version is refused only for an epoch of too many digits. Any other epoch that is no number counts
as zero. -/
theorem Version.ofText?_eq_error {value : Text} {e : Error}
    (h : Version.ofText? value = .error e) : ∃ n, e = .tooManyDigits n := by
  unfold ofText? at h
  simp only at h
  split at h
  · -- A colon marks off an epoch, which is the only part of a version that is converted.
    rename_i epoch rest _
    cases he : readEpoch epoch with
    | ok n =>
      rw [he] at h
      cases h
    | error cause =>
      rw [he] at h
      unfold readEpoch Numeral.readDecimal at he
      split_ifs at he
      exact ⟨_, (Except.error.inj h).symm.trans (Except.error.inj he).symm⟩
  · cases h

/-- The only value that a record cannot deal with is a number of too many digits. -/
theorem Package.put_eq_error {p : Package} {entries : List ArchPriority} {slot : Slot}
    {value : Text} {e : Error} (h : p.put entries slot value = .error e) :
    ∃ n, e = .tooManyDigits n := by
  cases slot with
  | number target =>
    unfold put putNumber at h
    simp only at h
    split at h
    · cases h
    · cases h
    · -- A malformed number is noted and not refused.
      rename_i cause hne hread
      obtain ⟨m, rfl⟩ | ⟨n, rfl⟩ := Numeral.readUnsigned_eq_error hread
      · exact (hne m rfl).elim
      · exact ⟨n, (Except.error.inj h).symm⟩
  | version =>
    unfold put putVersion at h
    cases hv : Version.ofText? value with
    | ok v =>
      rw [hv] at h
      cases h
    | error cause =>
      rw [hv] at h
      obtain ⟨n, rfl⟩ := Version.ofText?_eq_error hv
      exact ⟨n, (Except.error.inj h).symm⟩
  | text | switch | relation | architecture | status => cases h

/-! ### Values that are stored or passed over -/

namespace Package

variable {p : Package} {value : Text} {built : Built}

/-- What becomes of a number that is not refused: it is read and stored, or it is malformed, and then the
record stays as it is and one error is logged. -/
theorem putNumber_eq_ok_iff {a : NumberAttribute} :
    p.putNumber a value = .ok built ↔
      (∃ n : Nat, Numeral.readUnsigned value = .ok n ∧ built = { package := p.setNumber a (some n) }) ∨
        ∃ cause, Numeral.readUnsigned value = .error (.malformed cause) ∧
          built = { package := p, accepted := false, events := [.badNumber a p.name cause] } := by
  unfold putNumber
  split
  · rename_i n hread
    simp [hread, eq_comm]
  · rename_i cause hread
    simp [hread, eq_comm]
  · -- Any other error is that of a number of too many digits, which is refused.
    rename_i cause hne hread
    have hmalformed : ∀ c, cause ≠ .malformed c := fun c h => hne c h
    simp [hread, hmalformed]

/-- What becomes of a version that is not refused: it is read, and its three parts are stored. -/
theorem putVersion_eq_ok_iff :
    p.putVersion value = .ok built ↔ ∃ v, Version.ofText? value = .ok v ∧
      built =
        { package := { p with epoch := v.epoch, version := some v.base, revision := v.revision }
          events := Version.remarks p.name value } := by
  unfold putVersion
  cases Version.ofText? value with
  | ok v => simp [Except.map, eq_comm]
  | error cause => simp [Except.map]

end Package

namespace Session

/-- The header that a line is, if its field is selected. -/
def header? (s : Session) (line : Text) : Option Header :=
  (Header.ofLine? line).filter (·.field ∈ s.mask)

/-! ### Closing a block -/

@[simp] theorem close_mask (s : Session) : s.close.mask = s.mask := by
  unfold close
  split <;> rfl

@[simp] theorem close_architectures (s : Session) : s.close.architectures = s.architectures := by
  unfold close
  split <;> rfl

theorem close_of_idle {s : Session} (h : s.phase = .idle) : s.close = s := by
  simp [close, h]

/-- In a record that goes on, no block is open once the open one is closed. -/
theorem close_phase {s : Session} (h : s.finished = false) : s.close.phase = .idle := by
  unfold close
  split
  · rfl
  · rfl
  · assumption
  · simp_all [finished]

@[simp] theorem finish_package (s : Session) : s.finish.package = s.close.package := rfl

/-! ### The rules -/

/-- What a line does to a session, and what it means for the record. -/
inductive Step (s : Session) (line : Text) : Session → Outcome → Prop
  /-- The record has ended. -/
  | late (hf : s.finished = true) : Step s line s (.refused .sessionFinished)
  /-- A line of the open description. -/
  | text {summary : Text} {body : List Text} (hp : s.phase = .description summary body)
    (hb : s.isBody line = true) :
    Step s line { s with phase := .description summary (line :: body) } .goesOn
  /-- A line of the open list of configuration files. -/
  | file (hp : s.phase = .conffiles) (hb : s.isBody line = true) :
    Step s line { s with package := (s.package.addConffile line).package }
      (if (s.package.addConffile line).accepted then .goesOn else .malformed)
  /-- A blank line outside the open block. -/
  | blank (hf : s.finished = false) (hb : s.isBody line = false) (hl : line.allBlank = true) :
    Step s line { s.close with phase := .finished } .ended
  /-- Another line that is no selected header. -/
  | other (hf : s.finished = false) (hb : s.isBody line = false) (hl : line.allBlank = false)
    (hh : s.header? line = none) : Step s line s.close .goesOn
  /-- The header of a field on one line. -/
  | single {h : Header} {slot : Slot} {built : Built} (hf : s.finished = false)
    (hh : s.header? line = some h) (hk : h.field.kind = .single slot)
    (hput : s.package.put s.architectures slot (Header.valueAfter h.name line) = .ok built) :
    Step s line { s with package := built.package }.close
      (if built.accepted then .goesOn else .malformed)
  /-- The header of a field on one line whose value cannot be converted. -/
  | refused {h : Header} {slot : Slot} {cause : Error} (hf : s.finished = false)
    (hh : s.header? line = some h) (hk : h.field.kind = .single slot)
    (hput : s.package.put s.architectures slot (Header.valueAfter h.name line) = .error cause) :
    Step s line s (.refused cause)
  /-- The header of a description. -/
  | description {h : Header} (hf : s.finished = false) (hh : s.header? line = some h)
    (hk : h.field.kind = .description) :
    Step s line { s.close with phase := .description (Header.valueAfter h.name line) [] } .goesOn
  /-- The header of a list of configuration files. -/
  | conffiles {h : Header} (hf : s.finished = false) (hh : s.header? line = some h)
    (hk : h.field.kind = .conffiles) : Step s line { s.close with phase := .conffiles } .goesOn

variable {s s' : Session} {line : Text} {o : Outcome}

/-- A line of the open description is kept until its block ends. -/
theorem feedBody_of_description {summary : Text} {body : List Text}
    (hp : s.phase = .description summary body) :
    s.feedBody line =
      { session := { s with phase := .description summary (line :: body) }, outcome := .goesOn } := by
  simp [feedBody, hp]

/-- A line of the open list of files is stored at once. -/
theorem feedBody_of_conffiles (hp : s.phase = .conffiles) :
    s.feedBody line =
      { session := { s with package := (s.package.addConffile line).package }
        outcome := if (s.package.addConffile line).accepted then .goesOn else .malformed
        events := (s.package.addConffile line).events } := by
  simp [feedBody, hp]

theorem head?_of_isBody (h : s.isBody line = true) : line.head? = some ' ' := by
  simp only [isBody, Bool.and_eq_true, decide_eq_true_eq] at h
  exact h.1

/-- A header does not start with a space, and so belongs to no block. -/
theorem isBody_of_header? {h : Header} (hh : s.header? line = some h) : s.isBody line = false := by
  obtain ⟨hl, -⟩ := Option.filter_eq_some_iff.1 hh
  -- Lines of a block and headers differ in their first character.
  have hspace : line.head? ≠ some ' ' := fun hs => by simp [Header.ofLine?_of_space hs] at hl
  simp [isBody, hspace]

theorem header?_of_space (hs : line.head? = some ' ') : s.header? line = none := by
  simp [header?, Header.ofLine?_of_space hs]

theorem header?_of_allBlank (hl : line.allBlank = true) : s.header? line = none := by
  simp [header?, Header.ofLine?_of_allBlank hl]

/-- A line of the open block is read as one, before anything else is asked of it. -/
theorem feed_of_body (hf : s.finished = false) (hb : s.isBody line = true) :
    s.feed line = s.feedBody line := by
  simp [feed, hf, hb]

/-- The name of a header is not blank, and so neither is its line. -/
theorem allBlank_of_header? {h : Header} (hh : s.header? line = some h) :
    line.allBlank = false := by
  cases hl : line.allBlank with
  | false => rfl
  | true => simp [header?_of_allBlank hl] at hh

/-- Outside the open block a line is read by its header, if it is one that is selected. -/
theorem feed_of_outside (hf : s.finished = false) (hb : s.isBody line = false) :
    (s.feed line).session = (match s.header? line with
      | some h => s.feedHeader h (Header.valueAfter h.name line)
      | none => s.feedPlain line).session ∧
    (s.feed line).outcome = (match s.header? line with
      | some h => s.feedHeader h (Header.valueAfter h.name line)
      | none => s.feedPlain line).outcome := by
  have hfeed : s.feed line = s.feedOutside line := by simp [feed, hf, hb]
  -- The scan over the known headers finds the one of the line, and its notes are events only.
  rw [hfeed, header?, ← Header.recognise_fst]
  exact ⟨rfl, rfl⟩

/-- Each rule is a step of `feed`. -/
theorem Step.feed_eq (h : s.Step line s' o) :
    (s.feed line).session = s' ∧ (s.feed line).outcome = o := by
  cases h with
  | late hf => simp [feed, hf]
  | text hp hb =>
    rw [feed_of_body (by simp [finished, hp]) hb, feedBody_of_description hp]
    exact ⟨rfl, rfl⟩
  | file hp hb =>
    rw [feed_of_body (by simp [finished, hp]) hb, feedBody_of_conffiles hp]
    exact ⟨rfl, rfl⟩
  | blank hf hb hl =>
    have h := feed_of_outside hf hb
    -- A blank line is no header, so it is looked at as a plain one.
    rw [header?_of_allBlank hl] at h
    simpa [feedPlain, hl] using h
  | other hf hb hl hh =>
    have h := feed_of_outside hf hb
    rw [hh] at h
    simpa [feedPlain, hl] using h
  | single hf hh hk hput =>
    have h := feed_of_outside hf (isBody_of_header? hh)
    rw [hh] at h
    simpa [feedHeader, hk, feedSingle, hput] using h
  | refused hf hh hk hput =>
    have h := feed_of_outside hf (isBody_of_header? hh)
    rw [hh] at h
    simpa [feedHeader, hk, feedSingle, hput] using h
  | description hf hh hk =>
    have h := feed_of_outside hf (isBody_of_header? hh)
    rw [hh] at h
    simpa [feedHeader, hk] using h
  | conffiles hf hh hk =>
    have h := feed_of_outside hf (isBody_of_header? hh)
    rw [hh] at h
    simpa [feedHeader, hk] using h

/-- Every line falls under some rule. -/
theorem exists_step (s : Session) (line : Text) : ∃ s' o, s.Step line s' o := by
  cases hf : s.finished with
  | true => exact ⟨_, _, .late hf⟩
  | false =>
    -- The questions are asked in the order of `feed`: the open block, the header, blanks.
    cases hb : s.isBody line with
    | true =>
      -- Only an open block has lines, so the two other phases are excluded.
      cases hp : s.phase with
      | description summary body => exact ⟨_, _, .text hp hb⟩
      | conffiles => exact ⟨_, _, .file hp hb⟩
      | idle => simp [isBody, hp, Phase.block?] at hb
      | finished => simp [isBody, hp, Phase.block?] at hb
    | false =>
      cases hh : s.header? line with
      | some h =>
        cases hk : h.field.kind with
        | single slot =>
          cases hput : s.package.put s.architectures slot (Header.valueAfter h.name line) with
          | ok built => exact ⟨_, _, .single hf hh hk hput⟩
          | error cause => exact ⟨_, _, .refused hf hh hk hput⟩
        | description => exact ⟨_, _, .description hf hh hk⟩
        | conffiles => exact ⟨_, _, .conffiles hf hh hk⟩
      | none =>
        cases hl : line.allBlank with
        | true => exact ⟨_, _, .blank hf hb hl⟩
        | false => exact ⟨_, _, .other hf hb hl hh⟩

/-- **The rules are the step.** Reading a line gives a session and an outcome exactly when some rule
does. -/
theorem feed_eq_iff :
    (s.feed line).session = s' ∧ (s.feed line).outcome = o ↔ s.Step line s' o := by
  constructor
  · rintro ⟨rfl, rfl⟩
    -- Some rule applies, and its result is the one that `feed` gives.
    obtain ⟨s', o, h⟩ := exists_step s line
    obtain ⟨rfl, rfl⟩ := h.feed_eq
    exact h
  · exact Step.feed_eq

/-- What a session does with a line is the step of some rule, on which every invariant is proved. -/
theorem feed_step (s : Session) (line : Text) :
    s.Step line (s.feed line).session (s.feed line).outcome :=
  feed_eq_iff.1 ⟨rfl, rfl⟩

/-! ### What every rule keeps -/

/-- No line selects other fields. -/
theorem Step.mask_eq (h : s.Step line s' o) : s'.mask = s.mask := by
  cases h <;> simp

/-- No line changes which architectures are known. -/
theorem Step.architectures_eq (h : s.Step line s' o) : s'.architectures = s.architectures := by
  cases h <;> simp

/-- A session whose record goes on has not ended. -/
theorem Step.not_finished (h : s.Step line s' o) (ho : o = .goesOn ∨ o = .malformed) :
    s'.finished = false := by
  cases h with
  | late => simp at ho
  | text => rfl
  | file hp => simp [finished, hp]
  | blank => simp at ho
  | other hf => simp [finished, close_phase hf]
  | single hf => exact decide_eq_false (by rw [close_phase]; simp; exact hf)
  | refused => simp at ho
  | description => rfl
  | conffiles => rfl

/-- A line is not refused for a reason for which a source fails. -/
theorem Step.not_isReadFailure {cause : Error} (h : s.Step line s' (.refused cause)) :
    cause.isReadFailure = false := by
  generalize ho : Outcome.refused cause = o at h
  cases h with
  | late => cases ho; rfl
  | refused hf hh hk hput =>
    -- A value is refused for its digits only, and that is no failure of a source.
    cases ho
    obtain ⟨n, rfl⟩ := Package.put_eq_error hput
    rfl
  | file => split at ho <;> cases ho
  | single => split at ho <;> cases ho
  | text | blank | other | description | conffiles => cases ho

end Session

end ControlFile

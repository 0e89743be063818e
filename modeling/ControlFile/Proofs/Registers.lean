import ControlFile.Proofs.Actions

/-!
# Sessions by their variables

The phase of a session can be kept in separate variables: a flag for each of the two blocks, a flag for the
end of the record, and the lines of a description that is not stored yet, if there is one. `Registers` is
such a state. Its variables can contradict each other, and so its step may fail: a line of an open
description has nowhere to go if no list of lines is there (`Registers.feed?`).

A session shows as registers (`Session.registers`), and **both step together**
(`Session.feed?_registers`): the step of the registers never fails on a session, and gives the same record,
the same variables and the same say about the record.

`Registers.Consistent` lists what the variables owe each other. It is the range of the view
(`Registers.consistent_iff`): registers are consistent exactly if they are those of some session. So every
run that starts from consistent registers goes on for ever, with consistent registers all along
(`Registers.performAll?_consistent`).
-/

namespace ControlFile

/-- The state of a session, with a variable for each thing that it remembers. -/
structure Registers where
  package : Package
  /-- The fields to populate. -/
  mask : FieldSet
  /-- The priorities of the architectures. -/
  architectures : List ArchPriority
  readingDescription : Bool := false
  readingConffiles : Bool := false
  finished : Bool := false
  /-- The lines of a description that is not stored yet, in order. -/
  pending : Option (List Text) := none
  deriving DecidableEq

namespace Registers

/-- Registers for a record that populates what is requested and not forced off. -/
def start (package : Package) (requested : FieldSet) (config : Config) : Registers :=
  { package, mask := .effective requested config.forced, architectures := config.architectures }

/-! ### Steps -/

/-- Stores the pending description, if there is one. -/
def commit (r : Registers) : Registers :=
  { r with
    package :=
      { r.package with description := (r.pending.map (Text.join ['\n'])).or r.package.description }
    pending := none
    readingDescription := false }

/-- Ends the open block, if there is one. -/
def endBlock (r : Registers) : Registers := { r.commit with readingConffiles := false }

/-- Opens a description with this first line. -/
def startDescription (r : Registers) (summary : Text) : Registers :=
  { r.commit with pending := some [summary], readingDescription := true, readingConffiles := false }

/-- Opens a list of configuration files. -/
def startConffiles (r : Registers) : Registers :=
  { r.commit with readingConffiles := true, readingDescription := false }

/-- The registers after a line that is no selected header. -/
def feedPlain (r : Registers) (line : Text) : Registers × Outcome :=
  if line.allBlank then ({ r.endBlock with finished := true }, .ended) else (r.endBlock, .goesOn)

/-- The registers after a header with this value. -/
def feedHeader (r : Registers) (h : Header) (value : Text) : Registers × Outcome :=
  match h.field.kind with
  | .description => (r.startDescription value, .goesOn)
  | .conffiles => (r.startConffiles, .goesOn)
  | .single slot =>
    match r.package.put r.architectures slot value with
    | .ok built =>
      ({ r with package := built.package }.endBlock, if built.accepted then .goesOn else .malformed)
    -- The step is broken off here, and the open block stays open.
    | .error cause => (r, .refused cause)

/-- The registers after a line outside the open block. -/
def feedOutside (r : Registers) (line : Text) : Registers × Outcome :=
  match (Header.recognise r.mask line).1 with
  | some h => r.feedHeader h (Header.valueAfter h.name line)
  | none => r.feedPlain line

/-- The registers after a line, if the list of lines that it is added to exists. -/
def feed? (r : Registers) (line : Text) : Option (Registers × Outcome) :=
  if r.finished then some (r, .refused .sessionFinished)
  else if line.head? = some ' ' ∧ r.readingDescription ∧ .description ∈ r.mask then
    r.pending.map fun lines => ({ r with pending := some (lines ++ [line]) }, .goesOn)
  else if line.head? = some ' ' ∧ r.readingConffiles ∧ .conffiles ∈ r.mask then
    let built := r.package.addConffile line
    some ({ r with package := built.package }, if built.accepted then .goesOn else .malformed)
  else some (r.feedOutside line)

/-- The registers at the end of the record. -/
def finish (r : Registers) : Registers := { r.endBlock with finished := true }

/-- The registers after an action, if it does not fail. -/
def perform? (r : Registers) : Action → Option Registers
  | .feed line => (r.feed? line).map (·.1)
  | .finish => some r.finish
  | .select mask => some { r with mask }
  | .edit change => some { r with package := change r.package }

/-- The registers after some actions, in order, if none of them fails. -/
def performAll? (r : Registers) (actions : List Action) : Option Registers := actions.foldlM perform? r

variable {r : Registers} {line : Text}

theorem feed?_of_finished (hf : r.finished = true) :
    r.feed? line = some (r, .refused .sessionFinished) := if_pos hf

/-- A line of the open description goes to the end of the pending lines, if there are any. -/
theorem feed?_of_description (hf : r.finished = false) (hs : line.head? = some ' ')
    (hr : r.readingDescription = true) (hm : .description ∈ r.mask) :
    r.feed? line =
      r.pending.map fun lines => ({ r with pending := some (lines ++ [line]) }, .goesOn) := by
  simp [feed?, hf, hs, hr, hm]

/-- A line of the open list of files is stored, unless a description is open as well. -/
theorem feed?_of_conffiles (hf : r.finished = false) (hs : line.head? = some ' ')
    (hd : r.readingDescription = false) (hr : r.readingConffiles = true) (hm : .conffiles ∈ r.mask) :
    r.feed? line = some ({ r with package := (r.package.addConffile line).package },
      if (r.package.addConffile line).accepted then .goesOn else .malformed) := by
  simp [feed?, hf, hs, hd, hr, hm]

/-- A line that no open block with a selected field takes is read outside of it. -/
theorem feed?_of_outside (hf : r.finished = false)
    (hd : line.head? = some ' ' → r.readingDescription = true → .description ∉ r.mask)
    (hc : line.head? = some ' ' → r.readingConffiles = true → .conffiles ∉ r.mask) :
    r.feed? line = some (r.feedOutside line) := by
  simp only [feed?, hf]
  grind

/-- What the variables owe each other. -/
structure Consistent (r : Registers) : Prop where
  one_block : ¬(r.readingDescription ∧ r.readingConffiles)
  reading_iff : r.readingDescription ↔ r.pending.isSome
  pending_ne_nil : r.pending ≠ some []
  not_reading_of_finished :
    r.finished → ¬r.readingDescription ∧ ¬r.readingConffiles ∧ r.pending = none

end Registers

/-! ### The view of a session -/

namespace Session

/-- The variables of a session. -/
def registers (s : Session) : Registers where
  package := s.package
  mask := s.mask
  architectures := s.architectures
  readingDescription := s.readingDescription
  readingConffiles := s.readingConffiles
  finished := s.finished
  pending := s.pending?

variable {s s' : Session} {line : Text} {o : Outcome}

theorem registers_start (package : Package) (requested : FieldSet) (config : Config) :
    (start package requested config).registers = .start package requested config := rfl

/-- The end of a block is the end of a block in the variables. -/
theorem registers_close (s : Session) : s.close.registers = s.registers.endBlock := by
  obtain ⟨package, mask, architectures, phase⟩ := s
  cases phase <;> rfl

theorem registers_finish (s : Session) : s.finish.registers = s.registers.finish := by
  obtain ⟨package, mask, architectures, phase⟩ := s
  cases phase <;> rfl

theorem finish_of_finished (hf : s.finished = true) : s.finish = s := by
  obtain ⟨package, mask, architectures, phase⟩ := s
  obtain rfl : phase = .finished := of_decide_eq_true hf
  rfl

/-- The opening of a description is one in the variables too. -/
theorem registers_description (hf : s.finished = false) (summary : Text) :
    { s.close with phase := .description summary [] }.registers =
      s.registers.startDescription summary := by
  obtain ⟨package, mask, architectures, phase⟩ := s
  cases phase with
  | idle | description | conffiles => rfl
  | finished => cases hf

theorem registers_conffiles (hf : s.finished = false) :
    { s.close with phase := .conffiles }.registers = s.registers.startConffiles := by
  obtain ⟨package, mask, architectures, phase⟩ := s
  cases phase with
  | idle | description | conffiles => rfl
  | finished => cases hf

/-- A line belongs to the open block if it starts with a space and the field of the block is selected. -/
theorem isBody_eq_true_iff :
    s.isBody line = true ↔ line.head? = some ' ' ∧ ∃ f, s.phase.block? = some f ∧ f ∈ s.mask := by
  unfold isBody
  cases s.phase.block? <;> simp

/-- A line that does not belong to the open block is read outside of it. -/
theorem feed?_registers_of_outside (hf : s.finished = false) (hb : s.isBody line = false) :
    s.registers.feed? line = some (match s.header? line with
      | some h => s.registers.feedHeader h (Header.valueAfter h.name line)
      | none => s.registers.feedPlain line) := by
  -- a block whose flag is set and whose field is selected would have the line as one of its lines
  have hno (f : Field) (hs : line.head? = some ' ') (hr : decide (s.phase.block? = some f) = true)
      (hm : f ∈ s.mask) : False := by
    rw [isBody_eq_true_iff.2 ⟨hs, f, of_decide_eq_true hr, hm⟩] at hb
    cases hb
  rw [Registers.feed?_of_outside hf (hno .description) (hno .conffiles), Registers.feedOutside,
    header?, ← Header.recognise_fst]
  rfl

theorem feed?_registers_of_header? {h : Header} (hf : s.finished = false)
    (hh : s.header? line = some h) :
    s.registers.feed? line = some (s.registers.feedHeader h (Header.valueAfter h.name line)) := by
  rw [feed?_registers_of_outside hf (isBody_of_header? hh), hh]

theorem feed?_registers_of_header?_eq_none (hf : s.finished = false) (hb : s.isBody line = false)
    (hh : s.header? line = none) : s.registers.feed? line = some (s.registers.feedPlain line) := by
  rw [feed?_registers_of_outside hf hb, hh]

/-- **The variables step with the session**, rule by rule. -/
theorem Step.registers (h : s.Step line s' o) :
    s.registers.feed? line = some (s'.registers, o) := by
  cases h with
  | late hf => exact if_pos hf
  | @text summary body hp hb =>
    obtain ⟨hs, f, hopen, hm⟩ := isBody_eq_true_iff.1 hb
    obtain ⟨package, mask, architectures, phase⟩ := s
    obtain rfl : phase = .description summary body := hp
    obtain rfl : Field.description = f := Option.some.inj hopen
    -- the list of lines is there, and the line goes to its end
    refine (Registers.feed?_of_description rfl hs rfl hm).trans ?_
    simp [registers, pending?, readingDescription, readingConffiles, finished, Phase.block?]
  | file hp hb =>
    obtain ⟨hs, f, hopen, hm⟩ := isBody_eq_true_iff.1 hb
    obtain ⟨package, mask, architectures, phase⟩ := s
    obtain rfl : phase = .conffiles := hp
    obtain rfl : Field.conffiles = f := Option.some.inj hopen
    exact Registers.feed?_of_conffiles rfl hs rfl rfl hm
  | blank hf hb hl =>
    rw [feed?_registers_of_header?_eq_none hf hb (header?_of_allBlank hl)]
    show _ = some (s.finish.registers, _)
    rw [Registers.feedPlain, if_pos hl, registers_finish]
    rfl
  | other hf hb hl hh =>
    rw [feed?_registers_of_header?_eq_none hf hb hh, Registers.feedPlain, if_neg (by simp [hl]),
      ← registers_close]
  | @single _ slot _ hf hh hk hput =>
    -- the value is stored before the block ends, in the variables as in the session
    rw [feed?_registers_of_header? hf hh, Registers.feedHeader, hk, registers_close]
    show some (match s.package.put s.architectures slot _ with | .ok _ => _ | .error _ => _) = _
    rw [hput]
    rfl
  | @refused _ slot _ hf hh hk hput =>
    rw [feed?_registers_of_header? hf hh, Registers.feedHeader, hk]
    show some (match s.package.put s.architectures slot _ with | .ok _ => _ | .error _ => _) = _
    rw [hput]
  | description hf hh hk =>
    rw [feed?_registers_of_header? hf hh, registers_description hf, Registers.feedHeader, hk]
  | conffiles hf hh hk =>
    rw [feed?_registers_of_header? hf hh, registers_conffiles hf, Registers.feedHeader, hk]

/-- A record has ended after a line if it had before, or if the line is said to end it. -/
theorem Step.finished_iff (h : s.Step line s' o) :
    s'.finished = true ↔ s.finished = true ∨ o = .ended := by
  have hgoesOn := h.not_finished
  cases h with
  | late hf => exact ⟨fun _ => .inl hf, fun _ => hf⟩
  | blank => exact ⟨fun _ => .inr rfl, fun _ => rfl⟩
  | refused => simp
  | text hp | file hp =>
    -- In an open block the record goes on, before the line and after it.
    have hf : s.finished = false := by simp [finished, hp]
    grind
  | other hf | single hf | description hf | conffiles hf => grind

/-- **One step** of the registers of a session does not fail, and gives what the session gives. -/
theorem feed?_registers (s : Session) (line : Text) :
    s.registers.feed? line = some ((s.feed line).session.registers, (s.feed line).outcome) :=
  (feed_step s line).registers

/-- No action fails on the registers of a session. -/
theorem perform?_registers (s : Session) (a : Action) :
    s.registers.perform? a = some (s.perform a).registers := by
  cases a with
  | feed line => exact congrArg (Option.map Prod.fst) (feed?_registers s line)
  | finish => exact congrArg some (registers_finish s).symm
  | select mask | edit change => rfl

/-- The variables follow the session along a run. -/
theorem performAll?_registers (s : Session) (actions : List Action) :
    s.registers.performAll? actions = some (s.performAll actions).registers := by
  induction actions generalizing s with
  | nil => rfl
  | cons a actions ih =>
    rw [performAll_cons, ← ih (s.perform a)]
    -- The first action is taken out of the run, and the induction is for the session after it.
    show (s.registers.perform? a).bind _ = _
    rw [perform?_registers]
    rfl

end Session

/-! ### Consistency -/

namespace Registers

variable {r : Registers}

/-- The variables of a session agree with each other, in whichever phase it is. -/
theorem consistent_registers (s : Session) : s.registers.Consistent := by
  obtain ⟨package, mask, architectures, phase⟩ := s
  cases phase with
  | idle | conffiles => exact ⟨nofun, ⟨nofun, nofun⟩, nofun, nofun⟩
  | finished => exact ⟨nofun, ⟨nofun, nofun⟩, nofun, fun _ => ⟨nofun, nofun, rfl⟩⟩
  | description summary body => exact ⟨nofun, ⟨fun _ => rfl, fun _ => rfl⟩, nofun, nofun⟩

/-- Registers are consistent exactly if some session shows as them. -/
theorem consistent_iff : r.Consistent ↔ ∃ s : Session, s.registers = r := by
  constructor
  · intro h
    obtain ⟨package, mask, architectures, readingDescription, readingConffiles, finished, pending⟩ := r
    obtain ⟨hone, hiff, hne, hfin⟩ := h
    -- the flags tell the phase, and the phase tells the other variables
    cases finished with
    | true =>
      obtain ⟨hd, hc, rfl⟩ := hfin rfl
      obtain rfl : readingDescription = false := Bool.eq_false_iff.2 hd
      obtain rfl : readingConffiles = false := Bool.eq_false_iff.2 hc
      exact ⟨⟨package, mask, architectures, .finished⟩, rfl⟩
    | false =>
      cases readingDescription with
      | true =>
        obtain rfl : readingConffiles = false := Bool.eq_false_iff.2 fun hc => hone ⟨rfl, hc⟩
        obtain ⟨lines, rfl⟩ := Option.isSome_iff_exists.1 (hiff.1 rfl)
        obtain ⟨summary, body, rfl⟩ := List.exists_cons_of_ne_nil fun h => hne (congrArg some h)
        refine ⟨⟨package, mask, architectures, .description summary body.reverse⟩, ?_⟩
        simp [Session.registers, Session.pending?, Session.readingDescription,
          Session.readingConffiles, Session.finished, Phase.block?]
      | false =>
        obtain rfl : pending = none := Option.not_isSome_iff_eq_none.1 fun h =>
          Bool.false_ne_true (hiff.2 h)
        cases readingConffiles with
        | true => exact ⟨⟨package, mask, architectures, .conffiles⟩, rfl⟩
        | false => exact ⟨⟨package, mask, architectures, .idle⟩, rfl⟩
  · rintro ⟨s, rfl⟩
    exact consistent_registers s

/-- Registers whose record has ended have nothing left to store. -/
theorem Consistent.finish_eq (h : r.Consistent) (hf : r.finished = true) : r.finish = r := by
  obtain ⟨s, rfl⟩ := consistent_iff.1 h
  rw [← Session.registers_finish, Session.finish_of_finished hf]

/-! ### Runs -/

/-- An action that ends the record: the end of the input, or a line that is said to end it. -/
def Ends (r : Registers) : Action → Prop
  | .feed line => ∃ r', r.feed? line = some (r', .ended)
  | .finish => True
  | .select _ | .edit _ => False

/-- An action ends the record just where it is one that does. -/
theorem finished_perform (s : Session) (a : Action) :
    (s.perform a).registers.finished = true ↔ s.registers.finished = true ∨ s.registers.Ends a := by
  cases a with
  | feed line =>
    -- What the line says of the record is the outcome of its step, which the registers give too.
    refine (Session.feed_step s line).finished_iff.trans (or_congr_right ?_)
    show _ ↔ ∃ r', s.registers.feed? line = some (r', .ended)
    rw [Session.feed?_registers]
    simp
  | finish => exact ⟨fun _ => .inr trivial, fun _ => rfl⟩
  | select mask | edit change => exact ⟨.inl, fun h => h.resolve_right id⟩

/-- **Every run keeps the variables consistent.** A run of any actions from new registers does not fail, and
the registers stay those of the session. Of the registers that it reaches:

* they are consistent, so at most one block is open, a description is being read exactly when a list of
  lines is there, which is not empty, and nothing is open or pending once the record has ended;
* no further action fails, and after it the record has ended exactly if it had before or if the action
  ends it;
* once the record has ended, a line is refused and changes nothing, and ending it again changes nothing. -/
theorem performAll?_consistent (package : Package) (requested : FieldSet) (config : Config)
    (actions : List Action) :
    ∃ r, (start package requested config).performAll? actions = some r ∧
      r = ((Session.start package requested config).performAll actions).registers ∧
      r.Consistent ∧
      (∀ a, ∃ r', r.perform? a = some r' ∧
        (r'.finished = true ↔ r.finished = true ∨ r.Ends a)) ∧
      (r.finished = true →
        (∀ line, r.feed? line = some (r, .refused .sessionFinished)) ∧ r.finish = r) := by
  rw [← Session.registers_start, Session.performAll?_registers]
  refine ⟨_, rfl, rfl, ?_⟩
  -- From here on it does not matter how the session was reached: every session shows as consistent
  -- registers.
  generalize (Session.start package requested config).performAll actions = s
  have hconsistent := consistent_registers s
  refine ⟨hconsistent, fun a => ?_, fun hf => ⟨fun line => ?_, ?_⟩⟩
  · exact ⟨_, Session.perform?_registers s a, finished_perform s a⟩
  · exact feed?_of_finished hf
  · exact hconsistent.finish_eq hf

/-- The fields are selected anew while a description is open, so that its next line is passed over and ends
it. The end of the input ends the record, and from then on lines are refused. -/
theorem performAll?_consistent_select :
    ∃ r, (start {} .full {}).performAll? [.feed "Description: x".toList, .feed " y".toList,
        .select .empty, .feed " z".toList, .finish] = some r ∧
      r.package.description = some "x\n y".toList ∧
      r.feed? "Package: a".toList = some (r, .refused .sessionFinished) := by
  obtain ⟨r, hrun, hr, -, -, hfinished⟩ := performAll?_consistent {} .full {}
    [.feed "Description: x".toList, .feed " y".toList, .select .empty, .feed " z".toList, .finish]
  have hdescription : r.package.description = some "x\n y".toList := by
    rw [hr]
    decide +kernel
  have hf : r.finished = true := by
    rw [hr]
    decide +kernel
  exact ⟨r, hrun, hdescription, (hfinished hf).1 _⟩

end Registers

end ControlFile

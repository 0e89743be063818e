import ControlFile.Proofs.Actions
import ControlFile.Proofs.Restriction

/-!
# What a line may change

A line is allowed to change little of a record. `Session.Touches` names the fields whose attributes a line
may change: the field of one line whose selected header it is, the configuration files if it belongs to
their open block, and the description if it ends the block of one. Everything else in the record is as
before (`Session.Step.agreeAt`), where all the attributes of a field stand or fall together
(`Package.AgreeAt`).

A line that does not succeed changes less. A malformed value is told by one error in the log, and by then
nothing has happened to the record except that the open block has ended
(`Session.Step.package_of_malformed`); no other line logs an error (`Session.feed_tellsError`). A refused
line leaves the whole session as it was (`Session.Step.session_of_refused`). What a line logs is said once:
the headers that are passed over come first, and then one event that refuses a value, or else remarks on it
(`Outcome.Told`).

Along a run this adds up to masking (`Session.agreeAt_performAll`): as long as nobody selects other fields,
the attributes of the fields that are not selected keep the values that they had at the start. The reason is
an invariant of its own, `Session.BlockSelected`: without a new selection, an open block is always one of a
selected field.
-/

namespace ControlFile

namespace Package

/-- The records have the same attributes of this field. -/
def AgreeAt (f : Field) (p q : Package) : Prop := p.restrict (.single f) = q.restrict (.single f)

variable {f : Field} {p q r : Package} {entries : List ArchPriority} {slot : Slot} {value : Text}
  {built : Built}

theorem AgreeAt.refl (f : Field) (p : Package) : AgreeAt f p p := rfl

theorem AgreeAt.trans (h : AgreeAt f p q) (h' : AgreeAt f q r) : AgreeAt f p r := Eq.trans h h'

theorem AgreeAt.description_eq (h : AgreeAt .description p q) : p.description = q.description := by
  have h' : (p.restrict (.single .description)).description =
      (q.restrict (.single .description)).description := congrArg description h
  simpa [restrict] using h'

/-- Records that agree at every field are equal: each attribute belongs to some field. -/
theorem eq_of_agreeAt (h : ∀ f, AgreeAt f p q) : p = q := by
  have hall : ∀ f ∈ Field.all, AgreeAt f p q := fun f _ => h f
  -- written out over the fields, this is an equation for each attribute
  simp [Field.all, AgreeAt, restrict] at hall
  cases p
  cases q
  simp only [Package.mk.injEq] at *
  simp [hall]

/-- A value stored in a slot is seen at the field of the slot only. -/
theorem agreeAt_put (hput : p.put entries slot value = .ok built) (hf : slot.field ≠ f) :
    AgreeAt f built.package p := by
  apply put_restrict_of_not_mem _ hput
  rwa [FieldSet.mem_single]

/-- A line of the list of configuration files is seen at that list only. -/
theorem agreeAt_addConffile (p : Package) (line : Text) (hf : f ≠ .conffiles) :
    AgreeAt f (p.addConffile line).package p := by
  apply addConffile_restrict_of_not_mem
  rw [FieldSet.mem_single]
  exact hf.symm

/-- A description that is stored is seen at the description only. -/
theorem agreeAt_setDescription (p : Package) (d : Option Text) (hf : f ≠ .description) :
    AgreeAt f { p with description := d } p := by
  refine (setDescription_restrict p (.single f) d).trans (if_neg ?_)
  rw [FieldSet.mem_single]
  exact hf.symm

end Package

/-! ### What is logged of a line -/

/-- A note on a value that is accepted: a word of it has no meaning. -/
def Event.isRemark : Event → Bool
  | .unknownWant .. | .unknownFlag .. | .unknownStage .. | .invalidEpoch .. => true
  | _ => false

/-- The news that a value is not accepted. -/
def Event.isRefusal : Event → Bool
  | .badStatus .. | .badConffile .. | .badNumber .. => true
  | _ => false

theorem Event.level_eq_of_isRefusal {e : Event} (h : e.isRefusal = true) : e.level = .error := by
  cases e <;> simp_all [isRefusal, level]

theorem Event.level_ne_of_isRemark {e : Event} (h : e.isRemark = true) : e.level ≠ .error := by
  cases e <;> simp_all [isRemark, level]

/-- Of a version only an epoch that is no number is remarked on. -/
theorem Version.isRemark_of_mem_remarks {package : Option Text} {value : Text} {e : Event}
    (he : e ∈ Version.remarks package value) : e.isRemark = true := by
  obtain ⟨epoch, text, rfl⟩ := eq_of_mem_remarks he
  rfl

/-- Of a status only the words that have no meaning are remarked on, each in its place. -/
theorem Status.isRemark_of_mem_remarks {value : Text} {e : Event} (he : e ∈ Status.remarks value) :
    e.isRemark = true := by
  obtain ⟨word, rfl | rfl | rfl⟩ := eq_of_mem_remarks he <;> rfl

/-- What a value makes of a record. Either it is accepted, with remarks or without, or one event tells that
it is not, and the record is as it was. -/
inductive Built.Follows (p : Package) : Built → Prop
  | accepted {q : Package} {events : List Event} (h : ∀ e ∈ events, e.isRemark = true) :
    Follows p { package := q, events := events }
  | refused {e : Event} (h : e.isRefusal = true) :
    Follows p { package := p, accepted := false, events := [e] }

/-- A value that is not accepted leaves the record as it was. -/
theorem Built.Follows.package_eq {p : Package} {built : Built} (h : built.Follows p)
    (hrefused : built.accepted = false) : built.package = p := by
  cases h with
  | accepted => cases hrefused
  | refused => rfl

namespace Package

variable {p : Package} {entries : List ArchPriority} {slot : Slot} {value : Text} {built : Built}

/-- Every slot stores a value or leaves the record alone. The error that ends a reading is no such
result, and is excluded since the value was built. -/
theorem put_follows (hput : p.put entries slot value = .ok built) : built.Follows p := by
  cases slot with
  | text a | switch a | relation a | architecture =>
    -- these slots take every value
    obtain rfl := Except.ok.inj hput
    exact .accepted (List.forall_mem_nil _)
  | number a =>
    obtain ⟨n, -, rfl⟩ | ⟨cause, -, rfl⟩ := putNumber_eq_ok_iff.1 hput
    · exact .accepted (List.forall_mem_nil _)
    · exact .refused rfl
  | version =>
    obtain ⟨v, -, rfl⟩ := putVersion_eq_ok_iff.1 hput
    exact .accepted fun e => Version.isRemark_of_mem_remarks
  | status =>
    -- Three words are accepted, and any other number of them is refused.
    obtain rfl := Except.ok.inj hput
    unfold putStatus
    split
    · exact .accepted fun e => Status.isRemark_of_mem_remarks
    · exact .refused rfl

/-- A line of the list of configuration files is stored, or refused by one event. -/
theorem addConffile_follows (p : Package) (line : Text) : (p.addConffile line).Follows p := by
  unfold addConffile
  split
  · exact .accepted (List.forall_mem_nil _)
  · exact .refused rfl

end Package

/-- The events that tell an outcome: of a malformed line that its value is not accepted, and of any other
line remarks only. -/
inductive Outcome.Told : Outcome → List Event → Prop
  | malformed {e : Event} (h : e.isRefusal = true) : Told .malformed [e]
  | other {o : Outcome} {events : List Event} (ho : o ≠ .malformed)
    (h : ∀ e ∈ events, e.isRemark = true) : Told o events

theorem Outcome.told_nil {o : Outcome} (ho : o ≠ .malformed) : o.Told [] :=
  .other ho (List.forall_mem_nil _)

/-- What a value makes of a record decides the outcome of its line, so the events tell it. -/
theorem Built.Follows.told {p : Package} {built : Built} (h : built.Follows p) :
    Outcome.Told (if built.accepted then .goesOn else .malformed) built.events := by
  cases h with
  | accepted h => exact .other (by simp) h
  | refused h => exact .malformed h

namespace Session

variable {s : Session} {line : Text}

theorem told_feedPlain (s : Session) (line : Text) :
    (s.feedPlain line).outcome.Told (s.feedPlain line).events := by
  unfold feedPlain
  split
  · exact Outcome.told_nil (by simp)
  · exact Outcome.told_nil (by simp)

/-- A field of one line logs what storing its value does, and nothing where the value is refused. -/
theorem told_feedSingle (s : Session) (slot : Slot) (value : Text) :
    (s.feedSingle slot value).outcome.Told (s.feedSingle slot value).events := by
  unfold feedSingle
  split
  · rename_i built hput
    exact (Package.put_follows hput).told
  · exact Outcome.told_nil (by simp)

theorem told_feedHeader (s : Session) (h : Header) (value : Text) :
    (s.feedHeader h value).outcome.Told (s.feedHeader h value).events := by
  unfold feedHeader
  split
  · exact told_feedSingle s _ value
  · exact Outcome.told_nil (by simp)
  · exact Outcome.told_nil (by simp)

/-- A line of a description logs nothing, and a line of the configuration files logs what storing it
does. -/
theorem told_feedBody (s : Session) (line : Text) :
    (s.feedBody line).outcome.Told (s.feedBody line).events := by
  unfold feedBody
  split
  · exact Outcome.told_nil (by simp)
  · exact (s.package.addConffile_follows line).told

/-- Of a line outside the open block the headers that are passed over are noted first. -/
theorem exists_told_feedOutside (s : Session) (line : Text) :
    ∃ events, (s.feedOutside line).outcome.Told events ∧
      (s.feedOutside line).events =
        (Header.recognise s.mask line).2.map (.maskedField ·.name s.package.name) ++ events := by
  unfold feedOutside
  obtain ⟨header?, skipped⟩ := Header.recognise s.mask line
  -- The notes on passed headers are made before the line is looked at any further.
  cases header? with
  | some h => exact ⟨_, told_feedHeader s h _, rfl⟩
  | none => exact ⟨_, told_feedPlain s line, rfl⟩

end Session

/-! ### Errors in the log -/

/-- How many of the events are errors. -/
def errorCount (events : List Event) : Nat := events.countP (·.level = .error)

@[simp] theorem errorCount_nil : errorCount [] = 0 := rfl

@[simp] theorem errorCount_append (events events' : List Event) :
    errorCount (events ++ events') = errorCount events + errorCount events' :=
  List.countP_append

theorem errorCount_eq_zero {events : List Event} (h : ∀ e ∈ events, e.level ≠ .error) :
    errorCount events = 0 := by
  apply List.countP_eq_zero.2
  intro e he
  simpa using h e he

/-- The one event that tells a malformed line is the only error. -/
theorem Outcome.Told.errorCount_eq {o : Outcome} {events : List Event} (h : o.Told events) :
    errorCount events = if o = .malformed then 1 else 0 := by
  cases h with
  | malformed h => simp [errorCount, Event.level_eq_of_isRefusal h]
  | other ho h =>
    rw [if_neg ho, errorCount_eq_zero]
    intro e he
    exact Event.level_ne_of_isRemark (h e he)

/-- The headers that are passed over are noted for debugging only. -/
theorem errorCount_maskedField (name : Option Text) (skipped : List Header) :
    errorCount (skipped.map (.maskedField ·.name name)) = 0 := by
  apply errorCount_eq_zero
  intro e he
  obtain ⟨h, -, rfl⟩ := List.mem_map.1 he
  simp [Event.level]

/-- The events have one error if the line was malformed, and none otherwise. -/
def Fed.TellsError (fed : Fed) : Prop :=
  errorCount fed.events = if fed.outcome = .malformed then 1 else 0

namespace Session

variable {s s' : Session} {line : Text} {o : Outcome} {f : Field}

/-- A malformed line is told by one error in the log, and no other line logs an error. -/
theorem feed_tellsError (s : Session) (line : Text) : (s.feed line).TellsError := by
  unfold feed
  split
  · rfl
  split
  · -- A line of the open block passes over no header, and so its own events are all there are.
    exact (told_feedBody s line).errorCount_eq
  · obtain ⟨events, htold, hevents⟩ := exists_told_feedOutside s line
    rw [Fed.TellsError, hevents, errorCount_append, errorCount_maskedField, Nat.zero_add]
    exact htold.errorCount_eq

/-! ### What a line touches -/

/-- The fields whose attributes a line may change. -/
inductive Touches (s : Session) (line : Text) : Field → Prop
  /-- The line is the header of a selected field of one line. -/
  | header {h : Header} {slot : Slot} (hh : s.header? line = some h) (hk : h.field.kind = .single slot) :
    Touches s line h.field
  /-- The line belongs to the open list of configuration files. -/
  | file (hp : s.phase = .conffiles) (hb : s.isBody line = true) : Touches s line .conffiles
  /-- The line ends the block of a description, whose lines are stored. -/
  | description {lines : List Text} (hp : s.pending? = some lines) (hb : s.isBody line = false) :
    Touches s line .description

/-- Where no description is pending, the end of a block changes nothing in the record. -/
theorem close_package_of_pending?_eq_none (hp : s.pending? = none) : s.close.package = s.package := by
  rw [close_package, hp]
  rfl

/-- The end of a block is seen at the description only, and only if one is pending. -/
theorem agreeAt_close (h : s.pending? = none ∨ f ≠ .description) :
    s.package.AgreeAt f s.close.package := by
  obtain hp | hf := h
  · rw [close_package_of_pending?_eq_none hp]
    exact .refl f _
  · rw [close_package]
    exact (Package.agreeAt_setDescription s.package _ hf).symm

/-- A field that a line does not touch is kept when the line ends a block: either no description is
pending, or the field is another one. -/
theorem spares_description (hb : s.isBody line = false) (hf : ¬ s.Touches line f) :
    s.pending? = none ∨ f ≠ .description := by
  cases hp : s.pending? with
  | none => exact .inl rfl
  | some lines =>
    right
    rintro rfl
    exact hf (.description hp hb)

/-- **A line changes what it touches, and nothing else.** -/
theorem Step.agreeAt (h : s.Step line s' o) (hf : ¬ s.Touches line f) :
    s'.package.AgreeAt f s.package := by
  cases h with
  -- The record is changed by storing a value, a line of a list or a pending description. Each of the three
  -- is what the field would be touched by, so another field agrees.
  | late | text | refused => exact .refl f _
  | file hp hb =>
    apply Package.agreeAt_addConffile
    rintro rfl
    exact hf (.file hp hb)
  | blank _ hb | other _ hb => exact (agreeAt_close (spares_description hb hf)).symm
  | description _ hh | conffiles _ hh =>
    exact (agreeAt_close (spares_description (isBody_of_header? hh) hf)).symm
  | @single h slot built _ hh hk hput =>
    -- first the value is stored, and then the block that was open ends
    have hput' : built.package.AgreeAt f s.package := by
      apply Package.agreeAt_put hput
      rw [Field.slot_field hk]
      rintro rfl
      exact hf (.header hh hk)
    have hspared := spares_description (isBody_of_header? hh) hf
    have hclose : built.package.AgreeAt f { s with package := built.package }.close.package :=
      agreeAt_close (s := { s with package := built.package }) hspared
    exact hclose.symm.trans hput'

/-- A line that touches no field leaves the whole record as it was. -/
theorem Step.package_eq (h : s.Step line s' o) (hf : ∀ f, ¬ s.Touches line f) :
    s'.package = s.package := by
  apply Package.eq_of_agreeAt
  intro f
  exact h.agreeAt (hf f)

/-- The end of a block keeps the description or stores the pending one. -/
theorem close_description (s : Session) :
    s.close.package.description = s.package.description ∨ ∃ lines, s.pending? = some lines ∧
      s.close.package.description = some (Text.join ['\n'] lines) := by
  cases hp : s.pending? with
  | none =>
    rw [close_package_of_pending?_eq_none hp]
    exact .inl rfl
  | some lines =>
    rw [close_package, hp]
    exact .inr ⟨lines, rfl, rfl⟩

/-- The description changes by the end of its block and in no other way. -/
theorem Step.description_eq_or_close (h : s.Step line s' o) :
    s'.package.description = s.package.description ∨
      s.isBody line = false ∧ s'.package.description = s.close.package.description := by
  cases h with
  | late | text | refused => exact .inl rfl
  | file =>
    left
    apply Package.AgreeAt.description_eq
    exact Package.agreeAt_addConffile s.package line (by decide)
  | blank _ hb | other _ hb => exact .inr ⟨hb, rfl⟩
  | description _ hh | conffiles _ hh => exact .inr ⟨isBody_of_header? hh, rfl⟩
  | @single h slot built _ hh hk hput =>
    refine .inr ⟨isBody_of_header? hh, ?_⟩
    have hput' : built.package.description = s.package.description := by
      apply Package.AgreeAt.description_eq
      apply Package.agreeAt_put hput
      rw [Field.slot_field hk]
      intro hd
      rw [hd] at hk
      cases hk
    rw [close_package, close_package]
    -- Both records take the pending description, and without one they keep the same.
    show (s.pending?.map _).or built.package.description = (s.pending?.map _).or s.package.description
    rw [hput']

/-- A stored value makes its line malformed just where it is not accepted. -/
theorem malformed_eq_ite_iff {accepted : Bool} :
    Outcome.malformed = (if accepted then .goesOn else .malformed) ↔ accepted = false := by
  cases accepted <;> simp

/-- A malformed value changes nothing in the record. A description is stored all the same if its block
ends with the line. -/
theorem Step.package_of_malformed (h : s.Step line s' .malformed) :
    s'.package = s.close.package := by
  -- Only two kinds of line can be malformed: one that stores a value of a field, and one of the
  -- configuration files.
  generalize ho : Outcome.malformed = o at h
  cases h with
  | late | text | blank | other | refused | description | conffiles => cases ho
  | file hp =>
    -- The open block is a list of files, so no description is pending and its end is not seen.
    have hnone : s.pending? = none := by simp [pending?, hp]
    rw [close_package_of_pending?_eq_none hnone]
    exact (s.package.addConffile_follows line).package_eq (malformed_eq_ite_iff.1 ho)
  | single _ _ _ hput => rw [(Package.put_follows hput).package_eq (malformed_eq_ite_iff.1 ho)]

/-- A refused line leaves the session as it was. -/
theorem Step.session_of_refused {cause : Error} (h : s.Step line s' (.refused cause)) : s' = s := by
  generalize ho : Outcome.refused cause = o at h
  cases h with
  | late | refused => rfl
  | file | single => split at ho <;> cases ho
  | text | blank | other | description | conffiles => cases ho

/-! ### Masking along a run -/

/-- The field of the open block is selected. -/
def BlockSelected (s : Session) : Prop := ∀ f, s.phase.block? = some f → f ∈ s.mask

theorem blockSelected_of_block?_eq_none (h : s.phase.block? = none) : s.BlockSelected := by
  intro f hf
  rw [h] at hf
  cases hf

/-- A field that is not selected has no open block, so no description is pending without its field. -/
theorem BlockSelected.pending?_eq_none (h : s.BlockSelected) (hf : .description ∉ s.mask) :
    s.pending? = none := by
  cases hp : s.phase with
  | description summary body => exact absurd (h .description (by rw [hp]; rfl)) hf
  | idle | conffiles | finished => simp [pending?, hp]

/-- Fields that are not selected are not touched. -/
theorem BlockSelected.not_touches (h : s.BlockSelected) (hf : f ∉ s.mask) : ¬ s.Touches line f := by
  -- Each way to touch a field needs its header among the selected ones, or its block open.
  rintro (⟨hh, hk⟩ | ⟨hp, hb⟩ | ⟨hp, hb⟩)
  · obtain ⟨-, hm⟩ := Option.filter_eq_some_iff.1 hh
    exact hf (of_decide_eq_true hm)
  · exact hf (h .conffiles (by rw [hp]; rfl))
  · rw [h.pending?_eq_none hf] at hp
    cases hp

/-- A line opens the block of a selected field or no new one, and leaves the mask alone. -/
theorem Step.blockSelected (h : s.Step line s' o) (hs : s.BlockSelected) : s'.BlockSelected := by
  cases h with
  | late | file | refused => exact hs
  | text hp =>
    intro f hf
    exact hs f (by rw [hp]; exact hf)
  | blank => exact blockSelected_of_block?_eq_none rfl
  | other hf =>
    apply blockSelected_of_block?_eq_none
    rw [close_phase hf]
    rfl
  | single hf =>
    apply blockSelected_of_block?_eq_none
    rw [close_phase (by exact hf)]
    rfl
  | description hf hh hk =>
    -- the block that is opened is that of the header, which is selected
    obtain ⟨-, hm⟩ := Option.filter_eq_some_iff.1 hh
    intro f hopen
    obtain rfl : Field.description = f := Option.some.inj hopen
    rw [close_mask, ← Field.eq_description hk]
    exact of_decide_eq_true hm
  | conffiles hf hh hk =>
    obtain ⟨-, hm⟩ := Option.filter_eq_some_iff.1 hh
    intro f hopen
    obtain rfl : Field.conffiles = f := Option.some.inj hopen
    rw [close_mask, ← Field.eq_conffiles hk]
    exact of_decide_eq_true hm

end Session

/-- The action selects no other fields, and does not itself change the attributes of this field. -/
def Action.Spares (f : Field) : Action → Prop
  | .feed _ | .finish => True
  | .select _ => False
  | .edit change => ∀ p, (change p).AgreeAt f p

namespace Session

variable {s : Session} {f : Field} {a : Action} {actions : List Action}

/-- Only a selection changes the mask. -/
@[simp] theorem perform_mask (h : a.Spares f) : (s.perform a).mask = s.mask := by
  cases a with
  | feed line => exact (feed_step s line).mask_eq
  | finish => exact close_mask s
  | select mask => exact h.elim
  | edit change => rfl

/-- Only a selection could leave the block of a field open that is not selected. -/
theorem perform_blockSelected (h : a.Spares f) (hs : s.BlockSelected) :
    (s.perform a).BlockSelected := by
  cases a with
  | feed line => exact (feed_step s line).blockSelected hs
  | finish => exact blockSelected_of_block?_eq_none rfl
  | select mask => exact h.elim
  | edit change => exact hs

/-- An action keeps the attributes of a field that is not selected. -/
theorem perform_agreeAt (h : a.Spares f) (hs : s.BlockSelected) (hf : f ∉ s.mask) :
    (s.perform a).package.AgreeAt f s.package := by
  cases a with
  | feed line => exact (feed_step s line).agreeAt (hs.not_touches hf)
  | finish =>
    apply Eq.symm
    apply agreeAt_close
    -- The end of the input stores a pending description, and none is pending unless its field is selected.
    by_cases hd : f = .description
    · exact .inl (hs.pending?_eq_none (hd ▸ hf))
    · exact .inr hd
  | select mask => exact h.elim
  | edit change => exact h s.package

/-- **Masking.** The attributes of a field that is not selected stay as they are along a run that selects no
other fields. -/
theorem agreeAt_performAll (hs : s.BlockSelected) (hf : f ∉ s.mask)
    (hspares : ∀ a ∈ actions, a.Spares f) :
    (s.performAll actions).package.AgreeAt f s.package := by
  have h : (s.performAll actions).mask = s.mask ∧ (s.performAll actions).BlockSelected ∧
      (s.performAll actions).package.AgreeAt f s.package := by
    -- the mask belongs to the invariant, since it is the fields outside of it that are kept
    refine performAll_invariant (I := fun t => t.mask = s.mask ∧ t.BlockSelected ∧
      t.package.AgreeAt f s.package) ⟨rfl, hs, .refl f _⟩ ?_
    rintro a ha t ⟨hmask, hblock, hagree⟩
    have ha' := hspares a ha
    refine ⟨(perform_mask ha').trans hmask, perform_blockSelected ha' hblock, ?_⟩
    exact (perform_agreeAt ha' hblock (hmask ▸ hf)).trans hagree
  exact h.2.2

/-- **Every line touches only what it may.** For every session and every line:

* an attribute of a field that the line does not touch is as before, and the description changes only to
  the text that was pending;
* after a malformed value the record is as before, except that a pending description is stored if its
  block has ended;
* the log has one error if the line is malformed, and none otherwise;
* a refused line leaves the session as it was.

So in every run of a new session the fields that were not asked for, or are forced off, keep their attributes,
as long as nobody selects other fields or changes these attributes past the session. -/
theorem feed_frame :
    (∀ (s : Session) (line : Text),
      (∀ f, ¬ s.Touches line f → (s.feed line).session.package.AgreeAt f s.package) ∧
      ((s.feed line).session.package.description = s.package.description ∨
        ∃ lines, s.pending? = some lines ∧ s.isBody line = false ∧
          (s.feed line).session.package.description = some (Text.join ['\n'] lines)) ∧
      ((s.feed line).outcome = .malformed →
        (s.feed line).session.package =
          { s.package with
            description := (s.pending?.map (Text.join ['\n'])).or s.package.description }) ∧
      errorCount (s.feed line).events = (if (s.feed line).outcome = .malformed then 1 else 0) ∧
      (∀ cause, (s.feed line).outcome = .refused cause → (s.feed line).session = s)) ∧
    ∀ (p : Package) (requested : FieldSet) (config : Config) (actions : List Action) (f : Field),
      f ∉ requested \ config.forced → (∀ a ∈ actions, a.Spares f) →
        ((start p requested config).performAll actions).package.AgreeAt f p := by
  refine ⟨fun s line => ?_, fun p requested config actions f hf hspares => ?_⟩
  · -- All four facts are read off the step that the line makes.
    have hstep := feed_step s line
    refine ⟨fun f hf => hstep.agreeAt hf, ?_, fun ho => ?_, feed_tellsError s line, fun cause ho => ?_⟩
    · obtain hsame | ⟨hb, hclose⟩ := hstep.description_eq_or_close
      · exact .inl hsame
      · rw [hclose]
        obtain hsame | ⟨lines, hp, hd⟩ := s.close_description
        · exact .inl hsame
        · exact .inr ⟨lines, hp, hb, hd⟩
    · rw [ho] at hstep
      rw [hstep.package_of_malformed, close_package]
    · rw [ho] at hstep
      exact hstep.session_of_refused
  · -- The session starts with what was asked for and not forced off, and in no block.
    have hmask : f ∉ (start p requested config).mask := by
      rwa [start, FieldSet.mem_effective, ← FieldSet.mem_sdiff]
    exact agreeAt_performAll (blockSelected_of_block?_eq_none rfl) hmask hspares

/-- A status of two words ends a description, which is stored, and is told by one error. In a run that asks for
the status and the name, of which the name is forced off, the name stays absent, and so does the size, which
was not asked for. -/
theorem feed_frame_status :
    let s : Session :=
      { package := {}, mask := .full, architectures := [], phase := .description "x".toList [] }
    (s.feed "Status: install ok".toList).session.package =
        { s.package with description := some "x".toList } ∧
      errorCount (s.feed "Status: install ok".toList).events = 1 ∧
      ∀ f ∈ [Field.package, Field.size],
        ((start {} (.single .status ∪ .single .package) { forced := .single .package }).performAll
          [.feed "Package: a".toList, .feed "Status: install ok installed".toList, .feed "Size: 1".toList,
            .finish]).package.AgreeAt f {} := by
  refine ⟨?_, ?_, fun f hf => ?_⟩
  · exact (feed_frame.1 _ _).2.2.1 (by decide +kernel)
  · refine (feed_frame.1 _ _).2.2.2.1.trans (if_pos ?_)
    decide +kernel
  · have hleftOut : ∀ f ∈ [Field.package, Field.size],
        f ∉ (.single .status ∪ .single .package) \ FieldSet.single .package := by decide
    apply feed_frame.2
    · exact hleftOut f hf
    · intro a ha
      simp only [List.mem_cons, List.not_mem_nil, or_false] at ha
      obtain rfl | rfl | rfl | rfl := ha <;> trivial

end Session

end ControlFile

import ControlFile.Proofs.Blocks

/-!
# Leaving fields out

`Package.restrict` keeps the attributes of the fields in a set and puts all others back to how they
start. `Session.restrict` does the same to a session: it selects the set, restricts the record, and
forgets an open block whose field is not in the set.

**The two sessions step together** (`Session.Step.restrict`). A line that a session reads is read by the
restricted session too, with the restricted result and the same say about the end of the record. The
header of a field that is left out becomes a line that is passed over, and so do the lines of its block.
The one exception is a line of blanks in such a block, which is text for the session and the end of the
record for the restricted session; the lemma asks that there is none.

Two ideas carry the proof. A value is stored alike in the record and in its restriction, with the same
verdict, and is seen there if its field is in the set; each kind of attribute and each builder has a lemma
that says so, and `Package.put_restrict` puts them together. And what a line does to an open block depends
on whether that block is left out, so each kind of line has a lemma with these two cases
(`Session.step_restrict_of_text`, `Session.step_restrict_of_file`, `Session.step_restrict_of_single`,
`Session.step_restrict_of_opening`).
-/

namespace ControlFile

instance : Inter FieldSet := ⟨fun s t => ⟨fun f => s.has f && t.has f⟩⟩

@[simp] theorem FieldSet.mem_inter {s t : FieldSet} {f : Field} : f ∈ s ∩ t ↔ f ∈ s ∧ f ∈ t := by
  simp [Membership.mem, Inter.inter]

/-! ### The field of an attribute -/

/-- The field that is stored in a text attribute. -/
def TextAttribute.field : TextAttribute → Field
  | .name => .package
  | .maintainer => .maintainer
  | .sectionName => .sectionName
  | .source => .source
  | .tags => .tags
  | .priority => .priority
  | .filename => .filename
  | .md5sum => .md5sum
  | .sha256sum => .sha256sum

/-- The field that is stored in a number attribute. -/
def NumberAttribute.field : NumberAttribute → Field
  | .size => .size
  | .installedSize => .installedSize
  | .installedTime => .installedTime

/-- The field that is stored in a switch. -/
def Switch.field : Switch → Field
  | .essential => .essential
  | .autoInstalled => .autoInstalled

/-- The field that is stored in a relation attribute. -/
def Relation.field : Relation → Field
  | .depends => .depends
  | .preDepends => .preDepends
  | .recommends => .recommends
  | .suggests => .suggests
  | .conflicts => .conflicts
  | .replaces => .replaces
  | .provides => .provides

/-- The field that is stored in a slot. -/
def Slot.field : Slot → Field
  | .text a => a.field
  | .number a => a.field
  | .switch a => a.field
  | .relation a => a.field
  | .architecture => .architecture
  | .version => .version
  | .status => .status

/-- Different fields are stored in different slots. -/
theorem Field.slot_field {f : Field} {slot : Slot} (h : f.kind = .single slot) : slot.field = f := by
  cases f <;> cases h <;> rfl

/-! ### Records -/

namespace Package

/-- The record with the attributes of the fields in a set, and with all others as they start. -/
def restrict (p : Package) (e : FieldSet) : Package where
  name := if .package ∈ e then p.name else none
  architecture := if .architecture ∈ e then p.architecture else none
  archPriority := if .architecture ∈ e then p.archPriority else 0
  epoch := if .version ∈ e then p.epoch else 0
  version := if .version ∈ e then p.version else none
  revision := if .version ∈ e then p.revision else none
  want := if .status ∈ e then p.want else none
  flags := if .status ∈ e then p.flags else none
  stage := if .status ∈ e then p.stage else none
  size := if .size ∈ e then p.size else none
  installedSize := if .installedSize ∈ e then p.installedSize else none
  installedTime := if .installedTime ∈ e then p.installedTime else none
  maintainer := if .maintainer ∈ e then p.maintainer else none
  sectionName := if .sectionName ∈ e then p.sectionName else none
  source := if .source ∈ e then p.source else none
  tags := if .tags ∈ e then p.tags else none
  priority := if .priority ∈ e then p.priority else none
  filename := if .filename ∈ e then p.filename else none
  md5sum := if .md5sum ∈ e then p.md5sum else none
  sha256sum := if .sha256sum ∈ e then p.sha256sum else none
  depends := if .depends ∈ e then p.depends else []
  preDepends := if .preDepends ∈ e then p.preDepends else []
  recommends := if .recommends ∈ e then p.recommends else []
  suggests := if .suggests ∈ e then p.suggests else []
  conflicts := if .conflicts ∈ e then p.conflicts else []
  replaces := if .replaces ∈ e then p.replaces else []
  provides := if .provides ∈ e then p.provides else []
  description := if .description ∈ e then p.description else none
  conffiles := if .conffiles ∈ e then p.conffiles else []
  essential := if .essential ∈ e then p.essential else false
  autoInstalled := if .autoInstalled ∈ e then p.autoInstalled else false

@[simp] theorem restrict_empty (e : FieldSet) : restrict {} e = {} := by
  simp [restrict]

variable (p : Package) (e : FieldSet)

theorem restrict_name (h : .package ∈ e) : (p.restrict e).name = p.name := by
  simp [restrict, h]

/-- A text is seen in the restriction if its field is in the set. The same holds of each kind of
attribute, and is proved over its attributes once. -/
theorem setText_restrict (a : TextAttribute) (value : Option Text) :
    (p.setText a value).restrict e =
      if a.field ∈ e then (p.restrict e).setText a value else p.restrict e := by
  by_cases h : a.field ∈ e
  · rw [if_pos h]
    cases a <;> simp only [TextAttribute.field] at h <;> simp [setText, restrict, h]
  · rw [if_neg h]
    cases a <;> simp only [TextAttribute.field] at h <;> simp [setText, restrict, h]

theorem setNumber_restrict (a : NumberAttribute) (value : Option Int) :
    (p.setNumber a value).restrict e =
      if a.field ∈ e then (p.restrict e).setNumber a value else p.restrict e := by
  by_cases h : a.field ∈ e
  · rw [if_pos h]
    cases a <;> simp only [NumberAttribute.field] at h <;> simp [setNumber, restrict, h]
  · rw [if_neg h]
    cases a <;> simp only [NumberAttribute.field] at h <;> simp [setNumber, restrict, h]

theorem setSwitch_restrict (a : Switch) (value : Bool) :
    (p.setSwitch a value).restrict e =
      if a.field ∈ e then (p.restrict e).setSwitch a value else p.restrict e := by
  by_cases h : a.field ∈ e
  · rw [if_pos h]
    cases a <;> simp only [Switch.field] at h <;> simp [setSwitch, restrict, h]
  · rw [if_neg h]
    cases a <;> simp only [Switch.field] at h <;> simp [setSwitch, restrict, h]

theorem setRelation_restrict (a : Relation) (value : List Text) :
    (p.setRelation a value).restrict e =
      if a.field ∈ e then (p.restrict e).setRelation a value else p.restrict e := by
  by_cases h : a.field ∈ e
  · rw [if_pos h]
    cases a <;> simp only [Relation.field] at h <;> simp [setRelation, restrict, h]
  · rw [if_neg h]
    cases a <;> simp only [Relation.field] at h <;> simp [setRelation, restrict, h]

theorem getRelation_restrict (a : Relation) (h : a.field ∈ e) :
    (p.restrict e).getRelation a = p.getRelation a := by
  cases a <;> exact if_pos h

/-- A description that is stored is seen if its field is in the set. -/
theorem setDescription_restrict (value : Option Text) :
    { p with description := value }.restrict e =
      if .description ∈ e then { p.restrict e with description := value } else p.restrict e := by
  by_cases h : Field.description ∈ e
  · simp [restrict, h]
  · simp [restrict, h]

theorem setConffiles_restrict (value : List Conffile) :
    { p with conffiles := value }.restrict e =
      if .conffiles ∈ e then { p.restrict e with conffiles := value } else p.restrict e := by
  by_cases h : Field.conffiles ∈ e
  · simp [restrict, h]
  · simp [restrict, h]

/-- A file is added to the restricted record as to the whole one, or refused by both, since the line
alone decides. -/
theorem addConffile_restrict_of_mem (line : Text) (h : .conffiles ∈ e) :
    ((p.restrict e).addConffile line).package = (p.addConffile line).package.restrict e ∧
      ((p.restrict e).addConffile line).accepted = (p.addConffile line).accepted := by
  unfold addConffile
  split
  · -- The new file stands behind those that are stored, which are the same in both records.
    refine ⟨?_, rfl⟩
    rw [setConffiles_restrict, if_pos h]
    simp [restrict, h]
  · exact ⟨rfl, rfl⟩

/-- A file is not seen where the list is left out. -/
theorem addConffile_restrict_of_not_mem (line : Text) (h : .conffiles ∉ e) :
    (p.addConffile line).package.restrict e = p.restrict e := by
  unfold addConffile
  split
  · rw [setConffiles_restrict, if_neg h]
  · rfl

/-! ### One value

A builder does the same to a record and to its restriction. What it stores is seen in the restriction if
the field is in the set, and otherwise the restriction is as before. -/

/-- Whether a switch is turned on depends on the value alone. -/
theorem putSwitch_restrict (a : Switch) (value : Text) :
    (p.putSwitch a value).package.restrict e =
      if a.field ∈ e then ((p.restrict e).putSwitch a value).package else p.restrict e := by
  unfold putSwitch
  by_cases hyes : value = "yes".toList
  · rw [if_pos hyes, if_pos hyes, setSwitch_restrict]
  · -- A switch that is not turned on stays as it is.
    rw [if_neg hyes, if_neg hyes, ite_self]

/-- New items stand behind those that are stored, so these have to be the same as well. -/
theorem extendRelation_restrict (a : Relation) (value : Text) :
    (p.extendRelation a value).package.restrict e =
      if a.field ∈ e then ((p.restrict e).extendRelation a value).package else p.restrict e := by
  unfold extendRelation
  rw [setRelation_restrict]
  by_cases h : a.field ∈ e
  · -- The items that are stored are the same in both records, and so are the new ones.
    rw [if_pos h, if_pos h, getRelation_restrict p e a h]
  · rw [if_neg h, if_neg h]

/-- The priority of an architecture belongs to the same field. -/
theorem putArchitecture_restrict (arch : Text) (entries : List ArchPriority) :
    (p.putArchitecture arch entries).package.restrict e =
      if .architecture ∈ e then ((p.restrict e).putArchitecture arch entries).package
      else p.restrict e := by
  by_cases h : Field.architecture ∈ e
  · simp [putArchitecture, restrict, h]
  · simp [putArchitecture, restrict, h]

/-- The three states belong to one field. Words that are not three leave all of them. -/
theorem putStatus_restrict (value : Text) :
    (p.putStatus value).package.restrict e =
      if .status ∈ e then ((p.restrict e).putStatus value).package else p.restrict e := by
  unfold putStatus
  -- The words decide first, for both records alike, and then the set says whether they are seen.
  cases Status.ofText? value with
  | ok states => by_cases h : Field.status ∈ e <;> simp [restrict, h]
  | error cause => exact (ite_self _).symm

/-- Whether a status is accepted depends on its words alone. -/
theorem putStatus_accepted (p q : Package) (value : Text) :
    (p.putStatus value).accepted = (q.putStatus value).accepted := by
  unfold putStatus
  cases Status.ofText? value <;> rfl

variable {p e} {entries : List ArchPriority} {slot : Slot} {value : Text} {built : Built}

/-- The number that was there stays if the new one is malformed, in the record as in the restriction. -/
theorem putNumber_restrict {a : NumberAttribute} (h : p.putNumber a value = .ok built) :
    ∃ built', (p.restrict e).putNumber a value = .ok built' ∧ built'.accepted = built.accepted ∧
      built.package.restrict e = if a.field ∈ e then built'.package else p.restrict e := by
  obtain ⟨n, hread, rfl⟩ | ⟨cause, hread, rfl⟩ := putNumber_eq_ok_iff.1 h
  · exact ⟨_, putNumber_eq_ok_iff.2 (.inl ⟨n, hread, rfl⟩), rfl, setNumber_restrict p e a _⟩
  · exact ⟨_, putNumber_eq_ok_iff.2 (.inr ⟨cause, hread, rfl⟩), rfl, (ite_self _).symm⟩

/-- The parts of a version belong to one field, so they are seen together or not at all. -/
theorem putVersion_restrict (h : p.putVersion value = .ok built) :
    ∃ built', (p.restrict e).putVersion value = .ok built' ∧ built'.accepted = built.accepted ∧
      built.package.restrict e = if .version ∈ e then built'.package else p.restrict e := by
  obtain ⟨v, hread, rfl⟩ := putVersion_eq_ok_iff.1 h
  -- The value alone decides whether a version is read, so the restricted record takes it as well.
  refine ⟨_, putVersion_eq_ok_iff.2 ⟨v, hread, rfl⟩, rfl, ?_⟩
  by_cases hm : Field.version ∈ e
  · simp [restrict, hm]
  · simp [restrict, hm]

/-- **Storing and restricting.** A restricted record takes a value if the record does, and with the same
verdict. What is stored is seen in the restriction exactly if the field of the slot is in the set. -/
theorem put_restrict (hput : p.put entries slot value = .ok built) :
    ∃ built', (p.restrict e).put entries slot value = .ok built' ∧
      built'.accepted = built.accepted ∧
      built.package.restrict e = if slot.field ∈ e then built'.package else p.restrict e := by
  cases slot with
  | text a =>
    obtain rfl := Except.ok.inj hput
    exact ⟨_, rfl, rfl, setText_restrict p e a _⟩
  | number a => exact putNumber_restrict hput
  | switch a =>
    obtain rfl := Except.ok.inj hput
    exact ⟨_, rfl, rfl, putSwitch_restrict p e a value⟩
  | relation a =>
    obtain rfl := Except.ok.inj hput
    exact ⟨_, rfl, rfl, extendRelation_restrict p e a value⟩
  | architecture =>
    obtain rfl := Except.ok.inj hput
    exact ⟨_, rfl, rfl, putArchitecture_restrict p e value entries⟩
  | version => exact putVersion_restrict hput
  | status =>
    obtain rfl := Except.ok.inj hput
    exact ⟨_, rfl, putStatus_accepted _ _ value, putStatus_restrict p e value⟩

/-- A value that is stored in a field of the set is stored in the restricted record. -/
theorem put_restrict_of_mem (h : slot.field ∈ e) (hput : p.put entries slot value = .ok built) :
    ∃ built', (p.restrict e).put entries slot value = .ok built' ∧
      built'.package = built.package.restrict e ∧ built'.accepted = built.accepted := by
  obtain ⟨built', hput', haccepted, hpackage⟩ := put_restrict (e := e) hput
  rw [if_pos h] at hpackage
  exact ⟨built', hput', hpackage.symm, haccepted⟩

/-- A value that is stored in a field outside the set is not seen in the restricted record. -/
theorem put_restrict_of_not_mem (h : slot.field ∉ e)
    (hput : p.put entries slot value = .ok built) : built.package.restrict e = p.restrict e := by
  obtain ⟨_, -, -, hpackage⟩ := put_restrict (e := e) hput
  rwa [if_neg h] at hpackage

end Package

/-! ### Sessions -/

/-- The phase without a block whose field is not in the set. -/
def Phase.restrict (e : FieldSet) : Phase → Phase
  | .description summary body => if .description ∈ e then .description summary body else .idle
  | .conffiles => if .conffiles ∈ e then .conffiles else .idle
  | .idle => .idle
  | .finished => .finished

/-- The open block of a restricted phase is the one that was open, if its field is in the set. -/
theorem Phase.block?_restrict (ph : Phase) (e : FieldSet) :
    (ph.restrict e).block? = ph.block?.filter (· ∈ e) := by
  cases ph with
  | description summary body =>
    by_cases h : Field.description ∈ e <;> simp [restrict, block?, Option.filter, h]
  | conffiles =>
    by_cases h : Field.conffiles ∈ e <;> simp [restrict, block?, Option.filter, h]
  | idle | finished => rfl

/-- A block whose field is in the set stays open, with what was read of it. -/
theorem Phase.restrict_of_mem {ph : Phase} {f : Field} {e : FieldSet} (h : ph.block? = some f)
    (he : f ∈ e) : ph.restrict e = ph := by
  cases ph with
  | description | conffiles =>
    obtain rfl := Option.some.inj h
    exact if_pos he
  | idle | finished => cases h

/-- A block whose field is not in the set is as if it had never been opened. -/
theorem Phase.restrict_of_not_mem {ph : Phase} {f : Field} {e : FieldSet} (h : ph.block? = some f)
    (he : f ∉ e) : ph.restrict e = .idle := by
  cases ph with
  | description | conffiles =>
    obtain rfl := Option.some.inj h
    exact if_neg he
  | idle | finished => cases h

/-- Leaving fields out neither ends a record nor takes its end back. -/
theorem Phase.restrict_eq_finished_iff {ph : Phase} {e : FieldSet} :
    ph.restrict e = .finished ↔ ph = .finished := by
  cases ph with
  | description | conffiles =>
    simp only [restrict]
    split <;> simp
  | idle | finished => simp [restrict]

/-- Both outcomes end the record, or the record goes on after both. -/
def Outcome.EndsAlike (o o' : Outcome) : Prop :=
  o = .ended ∧ o' = .ended ∨ (o = .goesOn ∨ o = .malformed) ∧ (o' = .goesOn ∨ o' = .malformed)

namespace Session

/-- The session that selects the fields of a set, has read nothing of the other fields, and is in no
block of another field. -/
def restrict (s : Session) (e : FieldSet) : Session where
  package := s.package.restrict e
  mask := e
  architectures := s.architectures
  phase := s.phase.restrict e

variable {s s' : Session} {e : FieldSet} {line : Text} {o : Outcome}

@[simp] theorem finished_restrict : (s.restrict e).finished = s.finished := by
  simp only [finished, restrict, Phase.restrict_eq_finished_iff]

/-- The description that is stored at the end of its block is stored in the restriction too, or its block
was never open there. -/
theorem close_restrict (s : Session) (e : FieldSet) : (s.restrict e).close = s.close.restrict e := by
  cases hp : s.phase with
  | description summary body =>
    by_cases h : Field.description ∈ e
    · simp [close, restrict, hp, Phase.restrict, h, Package.setDescription_restrict]
    · simp [close, restrict, hp, Phase.restrict, h, Package.setDescription_restrict]
  | conffiles =>
    by_cases h : Field.conffiles ∈ e
    · simp [close, restrict, hp, Phase.restrict, h]
    · simp [close, restrict, hp, Phase.restrict, h]
  | idle | finished => simp [close, restrict, hp, Phase.restrict]

theorem finish_restrict (s : Session) (e : FieldSet) :
    (s.restrict e).finish.package = s.finish.package.restrict e := by
  rw [finish_package, close_restrict]
  rfl

/-- A selected header of the restricted session is one of the session. -/
theorem header?_restrict (hsub : ∀ f ∈ e, f ∈ s.mask) :
    (s.restrict e).header? line = (s.header? line).filter (·.field ∈ e) := by
  unfold header? restrict
  rw [Option.filter_filter]
  -- For a header in the set it makes no difference whether the mask is asked too.
  congr 1
  funext h
  have := hsub h.field
  grind

/-- A line of a block that the restricted session reads is one that the session reads. -/
theorem isBody_restrict (hsub : ∀ f ∈ e, f ∈ s.mask) :
    (s.restrict e).isBody line =
      (s.isBody line && match s.phase.block? with
        | some f => decide (f ∈ e)
        | none => false) := by
  unfold isBody restrict
  rw [Phase.block?_restrict]
  cases s.phase.block? with
  | none => simp
  | some f =>
    have := hsub f
    by_cases h : f ∈ e
    · simp [Option.filter, h, this h]
    · simp [Option.filter, h]

/-- The header of a field in the set is a selected one for both sessions. -/
theorem header?_restrict_of_mem {h : Header} (hsub : ∀ f ∈ e, f ∈ s.mask)
    (hh : s.header? line = some h) (he : h.field ∈ e) : (s.restrict e).header? line = some h := by
  rw [header?_restrict hsub, hh]
  simp [he]

/-- A line outside the block of the session is in none that the restricted session reads. -/
theorem isBody_restrict_of_not_isBody (hsub : ∀ f ∈ e, f ∈ s.mask) (hb : s.isBody line = false) :
    (s.restrict e).isBody line = false := by
  rw [isBody_restrict hsub, hb]
  rfl

/-- A line of the open block is one for the restricted session too, if the field of the block is in the
set. -/
theorem isBody_restrict_of_mem {f : Field} (hsub : ∀ f ∈ e, f ∈ s.mask) (hb : s.isBody line = true)
    (hopen : s.phase.block? = some f) (he : f ∈ e) : (s.restrict e).isBody line = true := by
  rw [isBody_restrict hsub, hb, hopen]
  simpa using he

/-! ### Lines of a block -/

/-- A line of a block that is left out is passed over. -/
theorem step_restrict_of_body (hidle : (s.restrict e).phase = .idle) (hs : line.head? = some ' ')
    (hl : line.allBlank = false) : (s.restrict e).Step line (s.restrict e) .goesOn := by
  have hf : (s.restrict e).finished = false := by simp [finished, hidle]
  have hb : (s.restrict e).isBody line = false := by simp [isBody, hidle, Phase.block?]
  have hh : (s.restrict e).header? line = none := by simp [header?, Header.ofLine?_of_space hs]
  have hstep := Step.other hf hb hl hh
  rwa [close_of_idle hidle] at hstep

/-- **A line of the open description** goes to the description, or is passed over if that is left out. -/
theorem step_restrict_of_text {summary : Text} {body : List Text} (hsub : ∀ f ∈ e, f ∈ s.mask)
    (hp : s.phase = .description summary body) (hb : s.isBody line = true)
    (hl : .description ∉ e → line.allBlank = false) :
    (s.restrict e).Step line
      ({ s with phase := .description summary (line :: body) }.restrict e) .goesOn := by
  have hopen : s.phase.block? = some .description := by rw [hp]; rfl
  by_cases he : Field.description ∈ e
  · have hp' : (s.restrict e).phase = .description summary body := by
      rw [← hp]
      exact Phase.restrict_of_mem hopen he
    have hstep := Step.text hp' (isBody_restrict_of_mem hsub hb hopen he)
    -- The line is added before or after fields are left out, since the open block is none of them.
    have hread : { s with phase := .description summary (line :: body) }.restrict e =
        { s.restrict e with phase := .description summary (line :: body) } := by
      simp [Session.restrict, Phase.restrict, he]
    rw [hread]
    exact hstep
  · -- Both before and after the line the restricted session is in no block.
    have hidle : (s.restrict e).phase = .idle := Phase.restrict_of_not_mem hopen he
    have hsame : { s with phase := .description summary (line :: body) }.restrict e = s.restrict e := by
      simp [Session.restrict, hp, Phase.restrict, he]
    rw [hsame]
    exact step_restrict_of_body hidle (head?_of_isBody hb) (hl he)

/-- **A line of the open list of files** adds a file, or is passed over if the list is left out. Whether it
is accepted does not matter, since the record goes on in both cases. -/
theorem step_restrict_of_file (hsub : ∀ f ∈ e, f ∈ s.mask) (hp : s.phase = .conffiles)
    (hb : s.isBody line = true) (hl : .conffiles ∉ e → line.allBlank = false) :
    ∃ o, (s.restrict e).Step line
        ({ s with package := (s.package.addConffile line).package }.restrict e) o ∧
      (o = .goesOn ∨ o = .malformed) := by
  have hopen : s.phase.block? = some .conffiles := by rw [hp]; rfl
  by_cases he : Field.conffiles ∈ e
  · have hp' : (s.restrict e).phase = .conffiles := by
      rw [← hp]
      exact Phase.restrict_of_mem hopen he
    have hstep := Step.file hp' (isBody_restrict_of_mem hsub hb hopen he)
    -- The new record comes from the lemma on files, and the verdict only shows that the record goes on.
    obtain ⟨hpackage, -⟩ := s.package.addConffile_restrict_of_mem e line he
    rw [show (s.restrict e).package = s.package.restrict e from rfl, hpackage] at hstep
    exact ⟨_, hstep, by split <;> simp⟩
  · have hidle : (s.restrict e).phase = .idle := Phase.restrict_of_not_mem hopen he
    have hsame : { s with package := (s.package.addConffile line).package }.restrict e =
        s.restrict e := by
      simp [Session.restrict, s.package.addConffile_restrict_of_not_mem e line he]
    rw [hsame]
    exact ⟨_, step_restrict_of_body hidle (head?_of_isBody hb) (hl he), .inl rfl⟩

/-! ### Headers -/

/-- The header of a field that is left out is passed over. It still ends the open block. -/
theorem step_restrict_of_header {h : Header} (hsub : ∀ f ∈ e, f ∈ s.mask)
    (hf : s.finished = false) (hh : s.header? line = some h) (he : h.field ∉ e) :
    (s.restrict e).Step line (s.close.restrict e) .goesOn := by
  have hb := isBody_restrict_of_not_isBody hsub (isBody_of_header? hh)
  -- The restricted session does not know the header, so the line is any other line to it.
  have hnone : (s.restrict e).header? line = none := by
    rw [header?_restrict hsub, hh]
    simp [he]
  rw [← close_restrict]
  exact .other (finished_restrict.trans hf) hb (allBlank_of_header? hh) hnone

/-- **The header of a field on one line** is stored, or passed over if the field is left out. In both cases
it ends the open block. -/
theorem step_restrict_of_single {h : Header} {slot : Slot} {built : Built} (hsub : ∀ f ∈ e, f ∈ s.mask)
    (hf : s.finished = false) (hh : s.header? line = some h) (hk : h.field.kind = .single slot)
    (hput : s.package.put s.architectures slot (Header.valueAfter h.name line) = .ok built) :
    ∃ o, (s.restrict e).Step line ({ s with package := built.package }.close.restrict e) o ∧
      (o = .goesOn ∨ o = .malformed) := by
  have hfield : slot.field = h.field := Field.slot_field hk
  rw [← close_restrict]
  by_cases he : h.field ∈ e
  · -- The restricted session stores the value too, so both go by the rule of a single header.
    obtain ⟨built', hput', hpackage, -⟩ := Package.put_restrict_of_mem (hfield ▸ he) hput
    have hstep := Step.single (finished_restrict.trans hf) (header?_restrict_of_mem hsub hh he) hk hput'
    rw [hpackage] at hstep
    exact ⟨_, hstep, by split <;> simp⟩
  · -- The value is stored where the restriction does not look.
    have hsame : { s with package := built.package }.restrict e = s.restrict e := by
      simp [Session.restrict, Package.put_restrict_of_not_mem (hfield ▸ he) hput]
    rw [hsame, close_restrict]
    exact ⟨_, step_restrict_of_header hsub hf hh he, .inl rfl⟩

/-- **The header of a block** opens the block, or is passed over if the field is left out: then the block that
is opened is closed again by the restriction. -/
theorem step_restrict_of_opening {h : Header} {ph : Phase} (hsub : ∀ f ∈ e, f ∈ s.mask)
    (hf : s.finished = false) (hh : s.header? line = some h) (hopen : ph.block? = some h.field)
    (hstep : h.field ∈ e →
      (s.restrict e).Step line { (s.restrict e).close with phase := ph } .goesOn) :
    (s.restrict e).Step line ({ s.close with phase := ph }.restrict e) .goesOn := by
  have hrestrict : { s.close with phase := ph }.restrict e =
      { s.close.restrict e with phase := ph.restrict e } := rfl
  rw [hrestrict]
  by_cases he : h.field ∈ e
  · rw [Phase.restrict_of_mem hopen he, ← close_restrict]
    exact hstep he
  · -- The restriction turns the new block into no block, which is where the old one was closed to.
    have hidle : s.close.phase.restrict e = .idle := by rw [close_phase hf]; rfl
    rw [Phase.restrict_of_not_mem hopen he, ← hidle]
    exact step_restrict_of_header hsub hf hh he

/-! ### The step -/

/-- **The two sessions step together.** Where a session reads a line, the restricted session reads it
with the restricted result, and the record ends for both or for neither. The line must not be one of
blanks in an open block that is left out. -/
theorem Step.restrict (h : s.Step line s' o) (hsub : ∀ f ∈ e, f ∈ s.mask)
    (hplain : ∀ f, s.phase.block? = some f → f ∉ e → line.head? = some ' ' → line.allBlank = false)
    (hread : ∀ cause, o ≠ .refused cause) :
    ∃ o', (s.restrict e).Step line (s'.restrict e) o' ∧ o.EndsAlike o' := by
  cases h with
  | late hf => exact absurd rfl (hread _)
  | text hp hb =>
    -- The assumption on blanks is needed here: a line of blanks would end the restricted record.
    have hl := fun he => hplain .description (by rw [hp]; rfl) he (head?_of_isBody hb)
    exact ⟨_, step_restrict_of_text hsub hp hb hl, .inr ⟨.inl rfl, .inl rfl⟩⟩
  | file hp hb =>
    have hl := fun he => hplain .conffiles (by rw [hp]; rfl) he (head?_of_isBody hb)
    obtain ⟨o', hstep, ho'⟩ := step_restrict_of_file hsub hp hb hl
    exact ⟨o', hstep, .inr ⟨by split <;> simp, ho'⟩⟩
  | blank hf hb hl =>
    -- A blank line outside of every open block ends both records, and stores the description in both.
    have hstep := Step.blank (finished_restrict.trans hf) (isBody_restrict_of_not_isBody hsub hb) hl
    rw [close_restrict] at hstep
    exact ⟨_, hstep, .inl ⟨rfl, rfl⟩⟩
  | other hf hb hl hh =>
    -- A line that is no selected header stays one when fewer fields are selected.
    have hh' : (s.restrict e).header? line = none := by
      rw [header?_restrict hsub, hh]
      rfl
    rw [← close_restrict]
    exact ⟨_, .other (finished_restrict.trans hf) (isBody_restrict_of_not_isBody hsub hb) hl hh',
      .inr ⟨.inl rfl, .inl rfl⟩⟩
  | single hf hh hk hput =>
    obtain ⟨o', hstep, ho'⟩ := step_restrict_of_single hsub hf hh hk hput
    exact ⟨o', hstep, .inr ⟨by split <;> simp, ho'⟩⟩
  | refused hf hh hk hput => exact absurd rfl (hread _)
  | description hf hh hk =>
    refine ⟨_, step_restrict_of_opening hsub hf hh ?_ fun he => ?_, .inr ⟨.inl rfl, .inl rfl⟩⟩
    · rw [Field.eq_description hk]
      rfl
    · exact .description (finished_restrict.trans hf) (header?_restrict_of_mem hsub hh he) hk
  | conffiles hf hh hk =>
    refine ⟨_, step_restrict_of_opening hsub hf hh ?_ fun he => ?_, .inr ⟨.inl rfl, .inl rfl⟩⟩
    · rw [Field.eq_conffiles hk]
      rfl
    · exact .conffiles (finished_restrict.trans hf) (header?_restrict_of_mem hsub hh he) hk

end Session

end ControlFile

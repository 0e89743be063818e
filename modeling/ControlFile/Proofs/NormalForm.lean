import ControlFile.Proofs.Harvest
import ControlFile.Proofs.Restriction
import ControlFile.Proofs.Values

/-!
# What reading leaves in a record

Not every record can come from lines. A text attribute that was read is trimmed and has no newline, an
item of a relation has no comma, a description is a line with indented lines after it, the priority of an
architecture is the one that is looked up. `Package.NormalAt` says this for one field, and
`Package.Normal` for all of them; it also says that only selected fields are set.

**Every package that a text gives is in this form** (`normal_of_readText`). The form is an invariant of
the session (`Session.Step.normal`). What a line stores has the form because a value on a line is trimmed
and split (`Package.slotNormal_put`), and what it does not store keeps it: the form of a field depends on
nothing but what is left when all other fields are left out (`Package.normalAt_congr`).
-/

namespace ControlFile

/-! ### Texts -/

namespace Text

/-- A value on one line. -/
structure IsValue (t : Text) : Prop where
  trimmed : t.Trimmed
  not_newline : '\n' ∉ t

/-- A line that goes on with a block. -/
structure IsBody (line : Text) : Prop where
  head : line.head? = some ' '
  not_newline : '\n' ∉ line

/-- A value with lines that go on with a block after it. -/
def IsDescription (t : Text) : Prop :=
  ∃ summary body, t = join ['\n'] (summary :: body) ∧ summary.IsValue ∧ ∀ line ∈ body, line.IsBody

end Text

/-- The value of a header line can stand on a line again. -/
theorem Header.isValue_valueAfter {line : Text} (h : '\n' ∉ line) (name : Text) :
    (valueAfter name line).IsValue :=
  ⟨Text.trimmed_trim _, fun hc => h (List.mem_of_mem_drop (Text.mem_of_mem_trim hc))⟩

/-- A configuration file that was read consists of two words. -/
theorem Conffile.isWord_of_ofLine? {line : Text} {c : Conffile} (h : ofLine? line = .ok c) :
    c.path.IsWord ∧ c.md5sum.IsWord := by
  unfold ofLine? at h
  split at h
  · rename_i path md5sum hwords
    obtain rfl := Except.ok.inj h
    have hword : ∀ w ∈ [path, md5sum], w.IsWord := fun w hw => (Text.mem_words (hwords ▸ hw)).1
    exact ⟨hword path (by simp), hword md5sum (by simp)⟩
  · cases h

/-! ### Records -/

namespace Package

variable (archs : List ArchPriority)

/-- The form of the value in a slot. -/
def SlotNormal (p : Package) : Slot → Prop
  | .text a => ∀ t, p.getText a = some t → t.IsValue
  | .number a => ∀ n, p.getNumber a = some n → 0 ≤ n
  | .switch _ => True
  | .relation a => ∀ t ∈ p.getRelation a, Text.IsItem ',' t ∧ '\n' ∉ t
  | .architecture =>
    match p.architecture with
    | some t => t.IsValue ∧ p.archPriority = ArchPriority.lookup t archs
    | none => p.archPriority = 0
  | .version =>
    match p.fullVersion with
    | some v => ∃ value, '\n' ∉ value ∧ v.IsRead value
    | none => p.epoch = 0 ∧ p.revision = none
  | .status => p.status = none → p.want = none ∧ p.flags = none ∧ p.stage = none

/-- The form of what is stored of a field. -/
def NormalAt (p : Package) (f : Field) : Prop :=
  match f.kind with
  | .single slot => p.SlotNormal archs slot
  | .description => ∀ t, p.description = some t → t.IsDescription
  | .conffiles => ∀ c ∈ p.conffiles, c.path.IsWord ∧ c.md5sum.IsWord

/-- The form of a record whose lines were read with these fields selected. -/
structure Normal (mask : FieldSet) (p : Package) : Prop where
  selected : p.restrict mask = p
  normalAt : ∀ f, p.NormalAt archs f

variable {archs} {p q : Package} {mask : FieldSet} {f : Field}

/-- The form of a field depends on nothing but what is stored of it. -/
theorem normalAt_restrict : (p.restrict (.single f)).NormalAt archs f ↔ p.NormalAt archs f := by
  cases f <;> rfl

/-- Records with the same attributes of a field have it in the same form. -/
theorem normalAt_congr (h : p.restrict (.single f) = q.restrict (.single f)) :
    p.NormalAt archs f ↔ q.NormalAt archs f := by
  rw [← normalAt_restrict, h, normalAt_restrict]

theorem normal_empty : Package.Normal archs mask {} := by
  refine ⟨restrict_empty mask, fun f => ?_⟩
  cases f <;> simp [NormalAt, Field.kind, SlotNormal, getText, getNumber, getRelation, fullVersion]

/-! ### One value -/

variable {slot : Slot} {value : Text} {built : Built}

/-- What is stored of a value on a line is in the form. -/
theorem slotNormal_put (hv : value.IsValue) (h : p.SlotNormal archs slot)
    (hput : p.put archs slot value = .ok built) : built.package.SlotNormal archs slot := by
  cases slot with
  | text a =>
    obtain rfl := Except.ok.inj hput
    intro t ht
    rw [getText_setText] at ht
    exact Option.some.inj ht ▸ hv
  | number a =>
    obtain ⟨k, -, rfl⟩ | ⟨cause, -, rfl⟩ := putNumber_eq_ok_iff.1 hput
    · intro n hn
      rw [getNumber_setNumber] at hn
      exact Option.some.inj hn ▸ Int.natCast_nonneg _
    · -- The old number is kept.
      exact h
  | switch a => trivial
  | relation a =>
    -- The items that were there are kept, and those of the value stand behind them.
    obtain rfl := Except.ok.inj hput
    intro t ht
    rw [extendRelation, getRelation_setRelation] at ht
    rcases List.mem_append.1 ht with ht | ht
    · exact h t ht
    · obtain ⟨hitem, hmem⟩ := Text.mem_items ht
      exact ⟨hitem, fun hc => hv.not_newline (hmem _ hc)⟩
  | architecture =>
    obtain rfl := Except.ok.inj hput
    exact ⟨hv, rfl⟩
  | version =>
    obtain ⟨v, hread, rfl⟩ := putVersion_eq_ok_iff.1 hput
    exact ⟨value, hv.not_newline, Version.isRead_of_ofText? hread⟩
  | status =>
    obtain rfl := Except.ok.inj hput
    unfold putStatus
    split
    · intro hs
      simp [status] at hs
    · exact h

/-- A value that is stored in a selected field keeps the form of the record. -/
theorem Normal.put (hp : p.Normal archs mask) (hv : value.IsValue) (hf : f.kind = .single slot)
    (hm : f ∈ mask) (hput : p.put archs slot value = .ok built) :
    built.package.Normal archs mask := by
  have hfield := Field.slot_field hf
  constructor
  · -- Storing commutes with the restriction, which changes nothing before.
    obtain ⟨built', hput', hpackage, -⟩ := put_restrict_of_mem (hfield ▸ hm) hput
    rw [hp.selected, hput] at hput'
    rw [← hpackage, ← Except.ok.inj hput']
  · intro g
    by_cases hg : f = g
    · have := hp.normalAt g
      rw [NormalAt, ← hg, hf] at this ⊢
      exact slotNormal_put hv this hput
    · -- Another field has what it had.
      refine (normalAt_congr (put_restrict_of_not_mem ?_ hput)).2 (hp.normalAt g)
      rwa [hfield, FieldSet.mem_single]

/-- A line of configuration files keeps the form, whether it names a file or not. -/
theorem Normal.addConffile (hp : p.Normal archs mask) (hm : .conffiles ∈ mask) (line : Text) :
    (p.addConffile line).package.Normal archs mask := by
  constructor
  · rw [← (addConffile_restrict_of_mem p mask line hm).1, hp.selected]
  · intro g
    by_cases hg : g = .conffiles
    · subst hg
      have h : ∀ c ∈ p.conffiles, c.path.IsWord ∧ c.md5sum.IsWord := hp.normalAt .conffiles
      unfold Package.addConffile
      split
      · rename_i c hc
        intro d hd
        rcases List.mem_append.1 hd with hd | hd
        · exact h d hd
        · -- The files that were there have the form, and the new one was read.
          obtain rfl := List.mem_singleton.1 hd
          exact Conffile.isWord_of_ofLine? hc
      · exact h
    · refine (normalAt_congr (addConffile_restrict_of_not_mem p _ line ?_)).2 (hp.normalAt g)
      rw [FieldSet.mem_single]
      exact fun h => hg h.symm

/-- A description of the form that is stored keeps the form of the record. -/
theorem Normal.setDescription (hp : p.Normal archs mask) (hm : .description ∈ mask) {t : Text}
    (ht : t.IsDescription) : { p with description := some t }.Normal archs mask := by
  constructor
  · rw [setDescription_restrict, if_pos hm, hp.selected]
  · intro g
    by_cases hg : g = .description
    · subst hg
      intro u hu
      exact Option.some.inj hu ▸ ht
    · refine (normalAt_congr ?_).2 (hp.normalAt g)
      rw [setDescription_restrict, if_neg]
      rw [FieldSet.mem_single]
      exact fun h => hg h.symm

end Package

/-! ### Sessions -/

namespace Session

/-- The form of a session: that of its record, and that of the description that is being read. A block
that is open has a selected field. -/
structure Normal (s : Session) : Prop where
  package : s.package.Normal s.architectures s.mask
  block : ∀ f, s.phase.block? = some f → f ∈ s.mask
  text : ∀ summary body, s.phase = .description summary body →
    summary.IsValue ∧ ∀ line ∈ body, line.IsBody

theorem normal_start (m : FieldSet) (c : Config) : (start {} m c).Normal :=
  ⟨Package.normal_empty, by simp [start, Phase.block?], by simp [start]⟩

variable {s s' : Session} {line : Text} {o : Outcome}

theorem isDescription_descriptionText {summary : Text} {body : List Text}
    (hs : summary.IsValue) (hb : ∀ line ∈ body, line.IsBody) :
    (descriptionText summary body).IsDescription :=
  ⟨summary, body.reverse, rfl, hs, fun line hl => hb line (List.mem_reverse.1 hl)⟩

/-- The end of a block keeps the form: what it stores is the description that was read. -/
theorem Normal.close (hs : s.Normal) : s.close.Normal := by
  cases hp : s.phase with
  | description summary body =>
    obtain ⟨hsummary, hbody⟩ := hs.text summary body hp
    -- The field of the open block is selected, so its description may be stored.
    have hpackage := hs.package.setDescription (hs.block .description (by rw [hp]; rfl))
      (isDescription_descriptionText hsummary hbody)
    unfold Session.close
    rw [hp]
    exact ⟨hpackage, by simp [Phase.block?], by simp⟩
  | conffiles =>
    unfold Session.close
    rw [hp]
    exact ⟨hs.package, by simp [Phase.block?], by simp⟩
  | idle | finished =>
    unfold Session.close
    rw [hp]
    exact hs

/-- **Every line keeps the form.** -/
theorem Step.normal (h : s.Step line s' o) (hs : s.Normal) (hline : '\n' ∉ line) : s'.Normal := by
  cases h with
  | late => exact hs
  | text hp hb =>
    -- The line goes to the description that is being read, and the record stays as it was.
    obtain ⟨hsummary, hbody⟩ := hs.text _ _ hp
    refine ⟨hs.package, fun f hf => hs.block f (by rw [hp]; exact hf), ?_⟩
    rintro _ _ ⟨⟩
    refine ⟨hsummary, fun l hl => ?_⟩
    rcases List.mem_cons.1 hl with rfl | hl
    · exact ⟨head?_of_isBody hb, hline⟩
    · exact hbody l hl
  | file hp hb =>
    have hm := hs.block .conffiles (by rw [hp]; rfl)
    exact ⟨hs.package.addConffile hm line, hs.block, hs.text⟩
  | blank => exact ⟨hs.close.package, by simp [Phase.block?], by simp⟩
  | other => exact hs.close
  | @single h slot built hf hh hk hput =>
    obtain ⟨-, hm⟩ := Option.filter_eq_some_iff.1 hh
    -- The value is stored first and the block ends then, and both keep the form.
    have hpackage := hs.package.put (Header.isValue_valueAfter hline h.name) hk
      (of_decide_eq_true hm) hput
    exact Normal.close (s := { s with package := built.package }) ⟨hpackage, hs.block, hs.text⟩
  | refused => exact hs
  | @description h hf hh hk =>
    obtain ⟨-, hm⟩ := Option.filter_eq_some_iff.1 hh
    refine ⟨hs.close.package, ?_, ?_⟩
    · rintro _ ⟨⟩
      -- The header was a selected one, and so the block that it opens is one of a selected field.
      rw [← Field.eq_description hk]
      exact (close_mask s).symm ▸ of_decide_eq_true hm
    · rintro _ _ ⟨⟩
      exact ⟨Header.isValue_valueAfter hline h.name, by simp⟩
  | @conffiles h hf hh hk =>
    obtain ⟨-, hm⟩ := Option.filter_eq_some_iff.1 hh
    refine ⟨hs.close.package, ?_, by simp⟩
    rintro _ ⟨⟩
    rw [← Field.eq_conffiles hk]
    exact (close_mask s).symm ▸ of_decide_eq_true hm

end Session

/-- **Every package of a text is in the form**, and has a name. -/
theorem normal_of_readText {m : FieldSet} {c : Config} {t : Text} {p : Package}
    (h : p ∈ (readText m c t).packages) :
    p.Normal c.architectures (.effective m c.forced) ∧ p.name ≠ none := by
  rw [show (readText m c t).packages = (readText m c t).harvest.packages from rfl] at h
  cases hc : Source.isCountable c.lineLimit with
  | false => simp [harvest_readText_of_not_countable hc] at h
  | true =>
    rw [harvest_readText hc] at h
    -- The selection and the architectures belong to the invariant, since the form depends on them.
    let I (s : Session) : Prop :=
      s.Normal ∧ s.mask = .effective m c.forced ∧ s.architectures = c.architectures
    have hstep : ∀ line ∈ t.within c.lineLimit, ∀ s s' o, I s → s.Step line s' o → I s' := by
      rintro line hl s s' o ⟨hs, hmask, harch⟩ hread
      have hline := Text.not_mem_of_mem_rows (List.takeWhile_subset _ hl)
      exact ⟨hread.normal hs hline, hread.mask_eq.trans hmask, hread.architectures_eq.trans harch⟩
    have hstart : I (.start {} m c) := ⟨Session.normal_start m c, rfl, rfl⟩
    obtain ⟨s, ⟨hs, hmask, harch⟩, rfl, hname⟩ := Session.of_mem_harvest hstep hstart hstart h
    have := hs.close.package
    rw [Session.close_mask, Session.close_architectures, hmask, harch] at this
    exact ⟨this, hname⟩

end ControlFile

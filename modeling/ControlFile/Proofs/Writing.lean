import ControlFile.Package.Paragraph
import ControlFile.Proofs.NormalForm

/-!
# What is written of a record

A paragraph is made of the texts of the fields that are set. Seen as lines, each text is the header line
of its field, `Field.headerLine`, with the lines of its block after it (`Text.rows_fieldLines_append`).

What is written of a field of one line is all that has to be read to get the value back
(`Package.put_restrict_union`): stored in a record that has some fields of a record in normal form, it
gives the record with this field too. `Package.Restores` says this of one text, and there is a lemma about
it for each kind of value. For a version this needs `Version.IsPlain`, because an epoch of zero is not
written. Nothing is written of a field that is not set, and then it has nothing to be read
(`Package.restrict_union_of_unset`).
-/

namespace ControlFile

/-! ### Results in order -/

theorem Except.bind_eq_ok_iff {ε α β : Type} {x : Except ε α} {f : α → Except ε β} {b : β} :
    x >>= f = .ok b ↔ ∃ a, x = .ok a ∧ f a = .ok b := by
  cases x <;> simp [bind, Except.bind]

theorem Except.map_eq_ok_iff {ε α β : Type} {x : Except ε α} {f : α → β} {b : β} :
    x.map f = .ok b ↔ ∃ a, x = .ok a ∧ f a = b := by
  cases x <;> simp [Except.map]

/-- The results for a list are those for its head and its tail. -/
theorem Except.mapM_cons_eq_ok {ε α β : Type} {f : α → Except ε β} {a : α} {as : List α}
    {bs : List β} (h : (a :: as).mapM f = .ok bs) :
    ∃ b rest, f a = .ok b ∧ as.mapM f = .ok rest ∧ bs = b :: rest := by
  rw [List.mapM_cons, Except.bind_eq_ok_iff] at h
  obtain ⟨b, hb, h⟩ := h
  obtain ⟨rest, hrest, h⟩ := Except.bind_eq_ok_iff.1 h
  exact ⟨b, rest, hb, hrest, (Except.ok.inj h).symm⟩

/-! ### Lines of a paragraph -/

/-- The set of some fields. -/
def FieldSet.ofList (fs : List Field) : FieldSet := ⟨fun f => f ∈ fs⟩

@[simp] theorem FieldSet.mem_ofList {fs : List Field} {f : Field} : f ∈ ofList fs ↔ f ∈ fs := by
  simp [ofList, Membership.mem]

/-- The header line of a field with this value on it. -/
def Field.headerLine (f : Field) (value : Text) : Text :=
  f.name ++ ':' :: if value = [] then [] else ' ' :: value

/-- A header line that is written is recognised as one of its field. -/
theorem Header.ofLine?_headerLine (f : Field) (value : Text) :
    ofLine? (f.headerLine value) = some ⟨f.name, f⟩ :=
  ofLine?_eq_some_iff.2 ⟨mem_catalogue f, heads_iff.2 ⟨_, rfl⟩⟩

/-- A trimmed value is read back from the header line that it is written on. -/
theorem Header.valueAfter_headerLine (f : Field) {value : Text} (h : value.Trimmed) :
    valueAfter f.name (f.headerLine value) = value := by
  -- The name and its colon are cut off by their length, and one space may be left in front.
  have hdrop : (f.headerLine value).drop (f.name.length + 1) =
      if value = [] then [] else ' ' :: value :=
    List.drop_length_add_append 1
  rw [valueAfter, hdrop]
  split
  · rename_i hnil
    rw [hnil, Text.trim_nil]
  · rw [Text.trim_cons_of_isBlank isBlank_space, h.trim_eq]

/-- A value without a newline stays on the header line. -/
theorem Field.newline_not_mem_headerLine (f : Field) {value : Text} (h : '\n' ∉ value) :
    '\n' ∉ f.headerLine value := by
  have hname : '\n' ∉ f.name := by cases f <;> decide
  unfold headerLine
  split <;> simp [hname, h]

namespace Text

/-- Lines that are joined and ended by newlines are read back one by one. -/
theorem rows_join_append {lines : List Text} (hne : lines ≠ []) (h : ∀ line ∈ lines, '\n' ∉ line)
    (rest : Text) : rows (join ['\n'] lines ++ '\n' :: rest) = lines ++ rows rest := by
  induction lines with
  | nil => exact absurd rfl hne
  | cons line lines ih =>
    have hline := h line List.mem_cons_self
    -- The last line has the newline of the text behind it, and any other the one that joins.
    cases lines with
    | nil => rw [join_singleton, rows_append_newline hline]; rfl
    | cons next lines =>
      rw [join_cons_cons, List.append_assoc, List.append_assoc, List.singleton_append,
        rows_append_newline hline, ih (by simp) fun l hl => h l (List.mem_cons_of_mem line hl)]
      rfl

/-- A field is written as its header line, with the other lines of its text after it. -/
theorem fieldLines_join (f : Field) {value : Text} (h : '\n' ∉ value) (more : List Text) :
    Package.fieldLines f (join ['\n'] (value :: more)) =
      join ['\n'] (f.headerLine value :: more) ++ ['\n'] := by
  cases value with
  | nil =>
    -- An empty value leaves the colon at the end of the line, without a space.
    have hline : f.headerLine [] = f.name ++ [':'] ++ [] := by simp [Field.headerLine]
    rw [hline, join_append_cons]
    cases more with
    | nil => simp [Package.fieldLines]
    | cons line more => simp [Package.fieldLines]
  | cons c value =>
    -- A text that starts with a newline would be written without a space.
    have hc : c ≠ '\n' := fun hc => h (by simp [hc])
    have hline : f.headerLine (c :: value) = f.name ++ [':', ' '] ++ c :: value := by
      simp [Field.headerLine]
    have hjoin : join ['\n'] ((c :: value) :: more) = c :: join ['\n'] (value :: more) :=
      join_append_cons ['\n'] [c] value more
    rw [hline, join_append_cons, hjoin, Package.fieldLines]
    · simp
    · simp
    · rintro t ⟨⟩
      exact hc rfl

/-- **The lines of a written field.** -/
theorem rows_fieldLines_append (f : Field) {value : Text} {more : List Text} (h : '\n' ∉ value)
    (hmore : ∀ line ∈ more, '\n' ∉ line) (rest : Text) :
    rows (Package.fieldLines f (join ['\n'] (value :: more)) ++ rest) =
      f.headerLine value :: more ++ rows rest := by
  rw [fieldLines_join f h, List.append_assoc, List.singleton_append,
    rows_join_append (by simp) ?_ rest]
  intro line hl
  rcases List.mem_cons.1 hl with rfl | hl
  · exact f.newline_not_mem_headerLine h
  · exact hmore line hl

end Text

/-! ### Values on one line -/

/-- A word can stand on a line. -/
theorem Text.IsWord.isValue {t : Text} (h : t.IsWord) : t.IsValue :=
  ⟨h.trimmed, fun hc => absurd (h.not_isBlank '\n' hc) (by decide)⟩

namespace Package

section Union

variable (p : Package) (e : FieldSet)

/-- A text that is stored again makes its field one of those that are kept. So it is with each kind of
attribute. -/
theorem setText_restrict_union (a : TextAttribute) :
    (p.restrict e).setText a (p.getText a) = p.restrict (e ∪ .single a.field) := by
  cases a <;> simp [setText, getText, restrict, TextAttribute.field]

theorem setNumber_restrict_union (a : NumberAttribute) :
    (p.restrict e).setNumber a (p.getNumber a) = p.restrict (e ∪ .single a.field) := by
  cases a <;> simp [setNumber, getNumber, restrict, NumberAttribute.field]

theorem setSwitch_restrict_union (a : Switch) :
    (p.restrict e).setSwitch a (p.getSwitch a) = p.restrict (e ∪ .single a.field) := by
  cases a <;> simp [setSwitch, getSwitch, restrict, Switch.field]

theorem setRelation_restrict_union (a : Relation) :
    (p.restrict e).setRelation a (p.getRelation a) = p.restrict (e ∪ .single a.field) := by
  cases a <;> simp [setRelation, getRelation, restrict, Relation.field]

theorem setDescription_restrict_union :
    { p.restrict e with description := p.description } = p.restrict (e ∪ .single .description) := by
  simp [restrict]

theorem setConffiles_restrict_union :
    { p.restrict e with conffiles := p.conffiles } = p.restrict (e ∪ .single .conffiles) := by
  simp [restrict]

theorem restrict_of_empty : p.restrict .empty = {} := by
  simp [restrict]

/-- Where every field is kept, the record is. -/
theorem restrict_eq_self {e : FieldSet} (h : ∀ f, f ∈ e) : p.restrict e = p := by
  simp [restrict, h]

end Union

variable {p : Package} {e : FieldSet} {f : Field} {slot : Slot} {archs : List ArchPriority} {t : Text}

/-- The text can stand on a line, and where it is stored in the record with the fields of `e` only, the field
of the slot is there as well. -/
def Restores (p : Package) (e : FieldSet) (archs : List ArchPriority) (slot : Slot) (t : Text) : Prop :=
  t.IsValue ∧ ∃ built, (p.restrict e).put archs slot t = .ok built ∧ built.accepted = true ∧
    built.package = p.restrict (e ∪ .single slot.field)

/-- A number is written in decimal, which is read back if it is not too long. -/
theorem restores_number {a : NumberAttribute} {n : Int} (hn : p.getNumber a = some n) (hpos : 0 ≤ n)
    (ht : Numeral.signed? n = .ok t) : p.Restores e archs (.number a) t := by
  obtain ⟨k, rfl⟩ := Int.eq_ofNat_of_zero_le hpos
  obtain ⟨hfits, rfl⟩ := Numeral.signed?_eq_ok_iff.1 ht
  rw [Numeral.signed_natCast]
  refine ⟨(Numeral.isWord_decimal k).isValue, _,
    putNumber_eq_ok_iff.2 (.inl ⟨k, Numeral.readUnsigned_decimal hfits, rfl⟩), rfl, ?_⟩
  show (p.restrict e).setNumber a (some k) = _
  rw [← hn]
  exact setNumber_restrict_union p e a

/-- A switch is written only where it is on. -/
theorem restores_switch {a : Switch} (h : p.getSwitch a = true) :
    p.Restores e archs (.switch a) "yes".toList := by
  have hword : Text.IsWord "yes".toList := Text.isWord_of_any (by decide) (by decide)
  refine ⟨hword.isValue, _, rfl, rfl, ?_⟩
  rw [putSwitch, if_pos rfl, ← h]
  exact setSwitch_restrict_union p e a

/-- Relations are added to those that are there, so the field must not be one of those that the record has
already. -/
theorem restores_relation {a : Relation} (hfe : a.field ∉ e)
    (hitems : ∀ u ∈ p.getRelation a, Text.IsItem ',' u ∧ '\n' ∉ u) :
    p.Restores e archs (.relation a) (Text.join [',', ' '] (p.getRelation a)) := by
  refine ⟨⟨?_, Text.not_mem_join (by decide) fun u hu => (hitems u hu).2⟩, _, rfl, rfl, ?_⟩
  · exact (Text.trimmed_join fun u hu => ⟨(hitems u hu).1.trimmed, (hitems u hu).1.ne_nil⟩).1
  · -- The field has no items yet, so those of the value are all.
    have hempty : (p.restrict e).getRelation a = [] := by
      cases a <;> exact if_neg hfe
    rw [extendRelation, hempty, List.nil_append,
      Text.items_join rfl (by decide) fun u hu => (hitems u hu).1]
    exact setRelation_restrict_union p e a

/-- The priority of an architecture is not written. It is looked up again. -/
theorem restores_architecture (h : p.architecture = some t) (hvalue : t.IsValue)
    (hpriority : p.archPriority = ArchPriority.lookup t archs) :
    p.Restores e archs .architecture t := by
  refine ⟨hvalue, _, rfl, rfl, ?_⟩
  rw [putArchitecture, ← h, ← hpriority]
  simp [restrict, Slot.field]

/-- A version is written as its three parts, from which they are read again if it is plain. -/
theorem restores_version {v : Version} {value : Text} (hv : p.fullVersion = some v)
    (hvalue : '\n' ∉ value) (hread : v.IsRead value) (hplain : v.IsPlain) (ht : v.text? = .ok t) :
    p.Restores e archs .version t := by
  obtain ⟨hfits, rfl⟩ := Version.fits_of_text? ht
  refine ⟨⟨hread.trimmed_text hplain, hread.newline_not_mem_text hvalue⟩, _,
    putVersion_eq_ok_iff.2 ⟨v, hread.ofText?_text hplain hfits, rfl⟩, rfl, ?_⟩
  -- What was read of the text are the parts that the record had.
  obtain ⟨base, hbase, rfl⟩ := Option.map_eq_some_iff.1 hv
  simp [restrict, Slot.field, hbase]

/-- The words of a status name its states, and all three are stored again. -/
theorem restores_status {s : Status} (hs : p.status = some s) : p.Restores e archs .status s.text := by
  refine ⟨⟨s.trimmed_text, s.newline_not_mem_text⟩, ?_⟩
  simp only [put, putStatus, s.ofText?_text]
  refine ⟨_, rfl, rfl, ?_⟩
  -- A record has a status if all of its three states are set.
  unfold status at hs
  split at hs
  · rename_i want flags stage hwant hflags hstage
    obtain rfl := Option.some.inj hs
    simp [restrict, Slot.field, hwant, hflags, hstage]
  · cases hs

/-- **A written value is read back** into a record that has other fields of the record only. -/
theorem put_restrict_union (hf : f.kind = .single slot) (hfe : f ∉ e)
    (hnormal : p.SlotNormal archs slot) (hplain : ∀ v, p.fullVersion = some v → v.IsPlain)
    (ht : p.slotText? slot = some (.ok t)) :
    t.IsValue ∧ ∃ built, (p.restrict e).put archs slot t = .ok built ∧ built.accepted = true ∧
      built.package = p.restrict (e ∪ .single f) := by
  -- One case for each kind of slot, with what is known of its value from the form of the record.
  obtain rfl := Field.slot_field hf
  show p.Restores e archs slot t
  cases slot with
  | text a =>
    obtain ⟨u, hu, hok⟩ := Option.map_eq_some_iff.1 ht
    obtain rfl := Except.ok.inj hok
    refine ⟨hnormal u hu, _, rfl, rfl, ?_⟩
    rw [← hu]
    exact setText_restrict_union p e a
  | number a =>
    obtain ⟨n, hn, hok⟩ := Option.map_eq_some_iff.1 ht
    exact restores_number hn (hnormal n hn) hok
  | switch a =>
    simp only [slotText?] at ht
    split at ht
    · obtain rfl := Except.ok.inj (Option.some.inj ht)
      exact restores_switch ‹_›
    · cases ht
  | relation a =>
    simp only [slotText?] at ht
    split at ht
    · cases ht
    · obtain rfl := Except.ok.inj (Option.some.inj ht)
      exact restores_relation hfe hnormal
  | architecture =>
    obtain ⟨u, hu, hok⟩ := Option.map_eq_some_iff.1 ht
    obtain rfl := Except.ok.inj hok
    simp only [SlotNormal, hu] at hnormal
    exact restores_architecture hu hnormal.1 hnormal.2
  | version =>
    obtain ⟨v, hv, hok⟩ := Option.map_eq_some_iff.1 ht
    simp only [SlotNormal, hv] at hnormal
    obtain ⟨value, hvalue, hread⟩ := hnormal
    exact restores_version hv hvalue hread (hplain v hv) hok
  | status =>
    obtain ⟨s, hs, hok⟩ := Option.map_eq_some_iff.1 ht
    obtain rfl := Except.ok.inj hok
    exact restores_status hs

/-- What it means for each kind of slot that nothing is written of it. -/
theorem slotText?_eq_none_iff : p.slotText? slot = none ↔
    match slot with
    | .text a => p.getText a = none
    | .number a => p.getNumber a = none
    | .switch a => p.getSwitch a = false
    | .relation a => p.getRelation a = []
    | .architecture => p.architecture = none
    | .version => p.fullVersion = none
    | .status => p.status = none := by
  cases slot <;> simp [slotText?]

/-- What is not written is not set. -/
theorem restrict_union_of_unset (hnormal : p.NormalAt archs f) (h : p.fieldText? f = none) :
    p.restrict (e ∪ .single f) = p.restrict e := by
  cases f <;>
    simp_all [NormalAt, SlotNormal, fieldText?, slotText?_eq_none_iff, Field.kind, getText, getNumber,
      getRelation, getSwitch, fullVersion, restrict]

/-- Only selected fields are written. -/
theorem mem_of_fieldText? {mask : FieldSet} {text? : Except Error Text} (hp : p.restrict mask = p)
    (h : p.fieldText? f = some text?) : f ∈ mask := by
  by_contra hf
  -- Nothing is written of what the restriction has left out.
  have hnone : (p.restrict mask).fieldText? f = none := by
    cases f <;>
      simp [fieldText?, Field.kind, slotText?_eq_none_iff, getText, getNumber, getSwitch, getRelation,
        fullVersion, status, restrict, hf]
  rw [hp, h] at hnone
  cases hnone

/-- A list of configuration files is written as lines after an empty one. -/
theorem conffilesText_eq (cs : List Conffile) :
    conffilesText cs = Text.join ['\n'] ([] :: cs.map fun c => ' ' :: c.text) := by
  induction cs with
  | nil => rfl
  | cons c cs ih =>
    -- The space of a line is put in front of its text before the lines are joined, so it is taken out of
    -- the join again.
    have hjoin : Text.join ['\n'] ((' ' :: c.text ++ []) :: cs.map fun c => ' ' :: c.text) =
        ' ' :: c.text ++ Text.join ['\n'] ([] :: cs.map fun c => ' ' :: c.text) :=
      Text.join_append_cons ..
    rw [List.append_nil] at hjoin
    rw [List.map_cons, Text.join_cons_cons, hjoin, ← ih]
    rfl

/-! ### Paragraphs -/

/-- What a paragraph has of a field. -/
def linesOf (p : Package) (f : Field) : Text :=
  match p.fieldText? f with
  | some (.ok t) => fieldLines f t
  | some (.error _) | none => []

/-- The texts of these fields can all be written. -/
def IsWritable (p : Package) (fs : List Field) : Prop :=
  ∀ f ∈ fs, ∀ text?, p.fieldText? f = some text? → ∃ t, text? = .ok t

/-- Lines that pass the check are written as they are. -/
theorem fieldLines?_eq_ok {t u : Text} (h : fieldLines? f t = .ok u) : u = fieldLines f t := by
  unfold fieldLines? at h
  split at h
  · exact (Except.ok.inj h).symm
  · cases h

/-- Fields that are written one by one give their lines. -/
theorem flatten_of_mapM {fs : List Field} {texts : List Text}
    (h : (fs.filterMap fun f => (p.fieldText? f).map (f, ·)).mapM
      (fun (f, text?) => text?.bind (fieldLines? f)) = .ok texts) :
    texts.flatten = fs.flatMap p.linesOf ∧ p.IsWritable fs := by
  induction fs generalizing texts with
  | nil =>
    obtain rfl := Except.ok.inj h
    exact ⟨rfl, by simp [IsWritable]⟩
  | cons f fs ih =>
    rw [List.flatMap_cons]
    cases htext : p.fieldText? f with
    | none =>
      -- The field is not set, and the paragraph has nothing of it.
      rw [List.filterMap_cons_none (by rw [htext]; rfl)] at h
      obtain ⟨hflatten, hwritable⟩ := ih h
      refine ⟨by simp [linesOf, htext, hflatten], ?_⟩
      intro g hg text? hg'
      rcases List.mem_cons.1 hg with rfl | hg
      · rw [htext] at hg'
        cases hg'
      · exact hwritable g hg text? hg'
    | some text? =>
      rw [List.filterMap_cons_some (by rw [htext]; rfl)] at h
      obtain ⟨lines, rest, hlines, hrest, rfl⟩ := Except.mapM_cons_eq_ok h
      obtain ⟨t, rfl, ht⟩ := Except.bind_eq_ok_iff.1 hlines
      obtain ⟨hflatten, hwritable⟩ := ih hrest
      refine ⟨by simp [linesOf, htext, hflatten, fieldLines?_eq_ok ht], ?_⟩
      intro g hg text? hg'
      rcases List.mem_cons.1 hg with rfl | hg
      · rw [htext] at hg'
        exact ⟨t, (Option.some.inj hg').symm⟩
      · exact hwritable g hg text? hg'

/-- **What a paragraph is.** -/
theorem paragraph?_eq_ok {t : Text} (h : p.paragraph? = .ok t) :
    t = Field.written.flatMap p.linesOf ∧ p.IsWritable Field.written ∧
      ∃ version, p.fullVersionText? = .ok version := by
  obtain ⟨texts, htexts, rfl⟩ := Except.map_eq_ok_iff.1 h
  obtain ⟨version, hversion, htexts⟩ := Except.bind_eq_ok_iff.1 htexts
  obtain ⟨hflatten, hwritable⟩ := flatten_of_mapM htexts
  exact ⟨hflatten, hwritable, version, hversion⟩

/-- The paragraphs of some records, each with an empty line after it. -/
def paragraphs? (ps : List Package) : Except Error Text :=
  (ps.mapM fun (p : Package) => p.paragraph?.map (· ++ ['\n'])).map List.flatten

/-- Paragraphs are written one by one, each with an empty line behind it. -/
theorem paragraphs?_cons_eq_ok {ps : List Package} {t : Text} (h : paragraphs? (p :: ps) = .ok t) :
    ∃ u v, p.paragraph? = .ok u ∧ paragraphs? ps = .ok v ∧ t = u ++ '\n' :: v := by
  obtain ⟨texts, htexts, rfl⟩ := Except.map_eq_ok_iff.1 h
  obtain ⟨first, rest, hfirst, hrest, rfl⟩ := Except.mapM_cons_eq_ok htexts
  obtain ⟨u, hu, rfl⟩ := Except.map_eq_ok_iff.1 hfirst
  refine ⟨u, rest.flatten, hu, ?_, by simp⟩
  rw [paragraphs?, hrest]
  rfl

end Package

end ControlFile

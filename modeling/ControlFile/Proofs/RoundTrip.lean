import ControlFile.Command.Report
import ControlFile.Proofs.Writing

/-!
# Reading what was written

The packages of a text can be written as paragraphs, with an empty line after each, and the paragraphs
are read as the same packages (`readText_paragraphs`). These paragraphs are what is shown of a text in
the control format (`out_report_control`).

`Session.ReadsText` says that a session reads a text whose lines all go on with the record, whatever
stands after it; texts that are read one after the other are read together. The fields of a paragraph are
read in the order of writing, and after each of them the session has the record restricted to the fields
so far, `Session.reading`: the fields of one line leave it in no block, and the two blocks come last.
-/

namespace ControlFile

/-- The line of a configuration file is read as its two words. -/
theorem Conffile.words_line {c : Conffile} (hpath : c.path.IsWord) (hmd5sum : c.md5sum.IsWord) :
    Text.words (' ' :: c.text) = [c.path, c.md5sum] := by
  have hc : c.text = Text.join [' '] [c.path, c.md5sum] := by simp [text]
  rw [Text.words_cons_of_isBlank isBlank_space, hc]
  apply Text.words_join
  intro t ht
  simp only [List.mem_cons, List.not_mem_nil, or_false] at ht
  obtain rfl | rfl := ht
  · exact hpath
  · exact hmd5sum

/-! ### Reading on -/

namespace Session

variable {s s' s'' fresh : Session} {line t u : Text} {lines more : List Text}
  {last : Option Error}

/-- Reading a text whose lines all go on with the record, whatever stands after it. -/
def ReadsText (s : Session) (t : Text) (s' : Session) : Prop :=
  ∃ lines, (∀ rest, Text.rows (t ++ rest) = lines ++ Text.rows rest) ∧ s.Reads lines s'

theorem ReadsText.nil (s : Session) : s.ReadsText [] s :=
  ⟨[], fun _ => rfl, .nil s⟩

/-- Texts that go on with the record are read one after the other. -/
theorem ReadsText.append (h : s.ReadsText t s') (h' : s'.ReadsText u s'') :
    s.ReadsText (t ++ u) s'' := by
  obtain ⟨lines, hrows, hreads⟩ := h
  obtain ⟨more, hrows', hreads'⟩ := h'
  refine ⟨lines ++ more, fun rest => ?_, hreads.append hreads'⟩
  rw [List.append_assoc, hrows, hrows', List.append_assoc]

theorem ReadsText.harvest (h : s.ReadsText t s') (rest : Text) :
    s.harvest fresh (Text.rows (t ++ rest)) last = s'.harvest fresh (Text.rows rest) last := by
  obtain ⟨lines, hrows, hreads⟩ := h
  rw [hrows, hreads.harvest]

/-! ### The lines of a block -/

/-- The lines of configuration files are read as the files, one by one. -/
theorem reads_files (hp : s.phase = .conffiles) (hm : .conffiles ∈ s.mask) (cs : List Conffile)
    (hcs : ∀ c ∈ cs, c.path.IsWord ∧ c.md5sum.IsWord) :
    s.Reads (cs.map fun c => ' ' :: c.text)
      { s with package := { s.package with conffiles := s.package.conffiles ++ cs } } := by
  -- Each line changes the record, so the induction is over all sessions in such a block.
  induction cs generalizing s with
  | nil =>
    rw [List.append_nil]
    exact .nil s
  | cons c cs ih =>
    obtain ⟨hpath, hmd5sum⟩ := hcs c List.mem_cons_self
    have hadd : s.package.addConffile (' ' :: c.text) =
        { package := { s.package with conffiles := s.package.conffiles ++ [c] } } := by
      rw [Package.addConffile, Conffile.ofLine?_eq_ok (Conffile.words_line hpath hmd5sum)]
    have hbody : s.isBody (' ' :: c.text) = true := by simp [isBody, hp, Phase.block?, hm]
    have hstep := Step.file hp hbody
    rw [hadd] at hstep
    refine .cons hstep (.inl rfl) ?_
    have hrest := ih (s := { s with
      package := { s.package with conffiles := s.package.conffiles ++ [c] } }) hp hm
      fun d hd => hcs d (List.mem_cons_of_mem c hd)
    simp only [List.append_assoc, List.singleton_append] at hrest
    exact hrest

/-- The lines of a description are kept, the latest first. -/
theorem reads_body {summary : Text} {acc : List Text} (hp : s.phase = .description summary acc)
    (hm : .description ∈ s.mask) (body : List Text) (hbody : ∀ line ∈ body, line.head? = some ' ') :
    s.Reads body { s with phase := .description summary (body.reverse ++ acc) } := by
  induction body generalizing s acc with
  | nil =>
    rw [List.reverse_nil, List.nil_append, ← hp]
    exact .nil s
  | cons line body ih =>
    -- Each line starts with a space, and the description is selected.
    have hline : s.isBody line = true := by
      simp [isBody, hp, Phase.block?, hm, hbody line List.mem_cons_self]
    have hstep := Step.text hp hline
    refine .cons hstep (.inl rfl) ?_
    rw [List.reverse_cons, List.append_assoc]
    exact ih rfl hm fun l hl => hbody l (List.mem_cons_of_mem line hl)

/-! ### The fields of a record -/

/-- A session that has read some of a record's fields and is in no block. -/
def reading (archs : List ArchPriority) (mask : FieldSet) (p : Package) (e : FieldSet) : Session :=
  { package := p.restrict e, mask, architectures := archs }

variable {archs : List ArchPriority} {mask e : FieldSet} {p : Package} {f : Field}

/-- The header line of a selected field is recognised. -/
theorem header?_headerLine (h : f ∈ s.mask) (value : Text) :
    s.header? (f.headerLine value) = some ⟨f.name, f⟩ := by
  simp [header?, Header.ofLine?_headerLine, Option.filter, h]

theorem linesOf_of_none (h : p.fieldText? f = none) : p.linesOf f = [] := by
  rw [Package.linesOf, h]

theorem linesOf_of_ok (h : p.fieldText? f = some (.ok t)) :
    p.linesOf f = Package.fieldLines f t := by
  rw [Package.linesOf, h]

/-- A field of one line is read from its line. -/
theorem readsText_single {slot : Slot} (hp : p.Normal archs mask)
    (hplain : ∀ v, p.fullVersion = some v → v.IsPlain) (hf : f.kind = .single slot) (hfe : f ∉ e)
    (hwritable : ∀ text?, p.fieldText? f = some text? → ∃ t, text? = .ok t) :
    (reading archs mask p e).ReadsText (p.linesOf f) (reading archs mask p (e ∪ .single f)) := by
  have hnormal := hp.normalAt f
  cases htext : p.fieldText? f with
  | none =>
    rw [linesOf_of_none htext, reading, reading, Package.restrict_union_of_unset hnormal htext]
    exact .nil _
  | some text? =>
    obtain ⟨t, rfl⟩ := hwritable text? htext
    have hm := Package.mem_of_fieldText? hp.selected htext
    rw [Package.NormalAt, hf] at hnormal
    have hslot : p.slotText? slot = some (.ok t) := by rwa [Package.fieldText?, hf] at htext
    obtain ⟨hvalue, built, hput, haccepted, hpackage⟩ :=
      Package.put_restrict_union hf hfe hnormal hplain hslot
    rw [linesOf_of_ok htext]
    refine ⟨[f.headerLine t], fun rest => ?_, ?_⟩
    · have hmore : ∀ line ∈ ([] : List Text), '\n' ∉ line := by simp
      have := Text.rows_fieldLines_append f hvalue.not_newline hmore rest
      rwa [Text.join_singleton] at this
    · -- What is put into the record is the value on the line, and the session is in no block after it.
      rw [← Header.valueAfter_headerLine f hvalue.trimmed] at hput
      have hstep := Step.single (s := reading archs mask p e) rfl
        (header?_headerLine hm t) hf hput
      rw [haccepted, close_of_idle rfl, hpackage] at hstep
      exact .single hstep (.inl rfl)

/-- **The fields of one line are read in the order of writing.** After them the session has the record
with just these fields. -/
theorem readsText_singles (hp : p.Normal archs mask)
    (hplain : ∀ v, p.fullVersion = some v → v.IsPlain) {fs : List Field}
    (hfs : ∀ f ∈ fs, ∃ slot, f.kind = .single slot) (hnodup : fs.Nodup) (hfe : ∀ f ∈ fs, f ∉ e)
    (hwritable : p.IsWritable fs) :
    (reading archs mask p e).ReadsText (fs.flatMap p.linesOf)
      (reading archs mask p (e ∪ .ofList fs)) := by
  induction fs generalizing e with
  | nil =>
    have he : e ∪ .ofList [] = e := FieldSet.ext_mem (by simp)
    rw [he]
    exact .nil _
  | cons f fs ih =>
    obtain ⟨hf, hnodup⟩ := List.nodup_cons.1 hnodup
    obtain ⟨slot, hslot⟩ := hfs f List.mem_cons_self
    -- The field is read first, and is one of those that the session has when it reads the others.
    have hfirst := readsText_single hp hplain hslot (hfe f List.mem_cons_self)
      (hwritable f List.mem_cons_self)
    have hrest := ih (e := e ∪ .single f) (fun g hg => hfs g (List.mem_cons_of_mem f hg)) hnodup
      (fun g hg => ?_) fun g hg => hwritable g (List.mem_cons_of_mem f hg)
    · have he : e ∪ .single f ∪ .ofList fs = e ∪ .ofList (f :: fs) :=
        FieldSet.ext_mem (by simp [or_assoc])
      rw [he] at hrest
      exact hfirst.append hrest
    · rw [FieldSet.mem_union, FieldSet.mem_single, not_or]
      exact ⟨hfe g (List.mem_cons_of_mem f hg), fun hgf => hf (hgf ▸ hg)⟩

/-- The list of configuration files is read from its block. The block stays open. -/
theorem readsText_conffiles (hp : p.Normal archs mask) (hfe : .conffiles ∉ e) :
    ∃ s, (reading archs mask p e).ReadsText (p.linesOf .conffiles) s ∧ s.finished = false ∧
      s.close = reading archs mask p (e ∪ .single .conffiles) := by
  have hnormal := hp.normalAt .conffiles
  by_cases hcs : p.conffiles = []
  · have htext : p.fieldText? .conffiles = none := if_pos hcs
    refine ⟨reading archs mask p e, ?_, rfl, ?_⟩
    · rw [linesOf_of_none htext]
      exact .nil _
    · rw [close_of_idle rfl, reading, reading, Package.restrict_union_of_unset hnormal htext]
  · -- The header line has no value, and each file a line behind it.
    have htext : p.fieldText? .conffiles = some (.ok (Package.conffilesText p.conffiles)) :=
      if_neg hcs
    have hm := Package.mem_of_fieldText? hp.selected htext
    have hstep := Step.conffiles (s := reading archs mask p e) rfl (header?_headerLine hm []) rfl
    rw [close_of_idle rfl] at hstep
    have hfiles := reads_files (s := { reading archs mask p e with phase := .conffiles }) rfl hm
      p.conffiles hnormal
    refine ⟨_, ⟨_, fun rest => ?_, .cons hstep (.inl rfl) hfiles⟩, rfl, ?_⟩
    · rw [linesOf_of_ok htext, Package.conffilesText_eq]
      refine Text.rows_fieldLines_append .conffiles (by simp) (fun line hl => ?_) rest
      obtain ⟨c, hc, rfl⟩ := List.mem_map.1 hl
      obtain ⟨hpath, hmd5sum⟩ := hnormal c hc
      simp [Conffile.text, hpath.isValue.not_newline, hmd5sum.isValue.not_newline]
    · have hempty : (p.restrict e).conffiles = [] := if_neg hfe
      simp only [close, reading, hempty, List.nil_append, Package.setConffiles_restrict_union]

/-- A description is read from its block, whatever block was open before. The block stays open. -/
theorem readsText_description (hp : p.Normal archs mask) (hf : s.finished = false)
    (hclose : s.close = reading archs mask p e)
    (hwritable : ∀ text?, p.fieldText? .description = some text? → ∃ t, text? = .ok t) :
    ∃ s', s.ReadsText (p.linesOf .description) s' ∧ s'.finished = false ∧
      s'.close = reading archs mask p (e ∪ .single .description) := by
  have hnormal := hp.normalAt .description
  cases htext : p.fieldText? .description with
  | none =>
    refine ⟨s, ?_, hf, ?_⟩
    · rw [linesOf_of_none htext]
      exact .nil _
    · rw [hclose, reading, reading, Package.restrict_union_of_unset hnormal htext]
  | some text? =>
    obtain ⟨t, rfl⟩ := hwritable text? htext
    have hset : p.description = some t := by
      obtain ⟨u, hu, hok⟩ := Option.map_eq_some_iff.1 htext
      rw [hu, Except.ok.inj hok]
    obtain ⟨summary, body, rfl, hsummary, hbody⟩ := hnormal t hset
    -- The header closes the block of the files, if it is open.
    have hmask : s.mask = mask := by rw [← close_mask, hclose]; rfl
    have hm : Field.description ∈ s.mask := hmask ▸ Package.mem_of_fieldText? hp.selected htext
    have hstep := Step.description hf (header?_headerLine hm summary) rfl
    rw [hclose, Header.valueAfter_headerLine _ hsummary.trimmed] at hstep
    have hreads := reads_body
      (s := { reading archs mask p e with phase := .description summary [] }) rfl
      (Package.mem_of_fieldText? hp.selected htext) body fun line hl => (hbody line hl).head
    refine ⟨_, ⟨_, fun rest => ?_, .cons hstep (.inl rfl) hreads⟩, rfl, ?_⟩
    · rw [linesOf_of_ok htext]
      exact Text.rows_fieldLines_append .description hsummary.not_newline
        (fun line hl => (hbody line hl).not_newline) rest
    · simp only [close, descriptionText, List.append_nil, List.reverse_reverse, ← hset, reading,
        Package.setDescription_restrict_union]

/-- **A record is read from its lines.** -/
theorem readsText_record (hp : p.Normal archs mask)
    (hplain : ∀ v, p.fullVersion = some v → v.IsPlain) (hwritable : p.IsWritable Field.written) :
    ∃ s, ({ package := {}, mask, architectures := archs } : Session).ReadsText
        (Field.written.flatMap p.linesOf) s ∧
      s.finished = false ∧ s.close.package = p := by
  -- All fields of one line come before the two blocks.
  let fs := Field.written.take 24
  -- The blocks stand at the end, the list of files before the description.
  have hsplit : Field.written = fs ++ [.conffiles, .description] := rfl
  have hfields : (reading archs mask p .empty).ReadsText (fs.flatMap p.linesOf)
      (reading archs mask p (.empty ∪ .ofList fs)) := by
    refine readsText_singles hp hplain ?_ (by decide) (by simp) fun f hf => hwritable f ?_
    · intro f hf
      cases f <;> first | exact ⟨_, rfl⟩ | exact absurd hf (by decide)
    · exact List.mem_of_mem_take hf
  -- The block of the files may still be open when the description begins, which closes it.
  obtain ⟨s, hconffiles, hf, hclose⟩ := readsText_conffiles (e := .empty ∪ .ofList fs) hp
    (by decide)
  obtain ⟨s', hdescription, hf', hclose'⟩ := readsText_description hp hf hclose
    (hwritable .description (by decide))
  refine ⟨s', ?_, hf', ?_⟩
  · have hreads := (hfields.append hconffiles).append hdescription
    rw [reading, Package.restrict_of_empty] at hreads
    rw [hsplit, List.flatMap_append]
    simpa using hreads
  · rw [hclose']
    refine Package.restrict_eq_self p fun f => ?_
    cases f <;> decide

end Session

/-! ### Texts -/

/-- The paragraph of a record and an empty line are read as the record. -/
theorem harvest_paragraph {m : FieldSet} {c : Config} {p : Package} {t : Text}
    (hp : p.Normal c.architectures (.effective m c.forced)) (hname : p.name ≠ none)
    (hplain : ∀ v, p.fullVersion = some v → v.IsPlain) (ht : p.paragraph? = .ok t) (rest : Text)
    (fresh : Session) :
    (Session.start {} m c).harvest fresh (Text.rows (t ++ '\n' :: rest)) none =
      (fresh.harvest fresh (Text.rows rest) none).after [p] := by
  obtain ⟨rfl, hwritable, version, hversion⟩ := Package.paragraph?_eq_ok ht
  obtain ⟨s, hreads, hf, hpackage⟩ := Session.readsText_record hp hplain hwritable
  have hstart : Session.start {} m c =
      { package := {}, mask := .effective m c.forced, architectures := c.architectures } := rfl
  have hrows : Text.rows ('\n' :: rest) = [] :: Text.rows rest :=
    Text.rows_append_newline List.not_mem_nil rest
  obtain ⟨name, hname⟩ := Option.ne_none_iff_exists'.1 hname
  rw [hstart, hreads.harvest, hrows, Session.harvest_blank hf, Session.finish_package, hpackage,
    Package.harvest_of_name hname hversion]

/-- Showing items in the control format writes the paragraphs of their packages. -/
theorem showItems_control {items : List Item} {out : Text}
    (h : Package.paragraphs? ({ items } : Trace).packages = .ok out) (s : Progress) :
    ∃ s', showItems .control items s = (s', none) ∧
      s'.texts.reverse.flatten = s.texts.reverse.flatten ++ out := by
  induction items generalizing s out with
  | nil =>
    obtain rfl := Except.ok.inj h
    exact ⟨s, rfl, by simp⟩
  | cons item items ih =>
    cases item with
    | event e => exact ih h { s with events := e :: s.events }
    | package p =>
      obtain ⟨u, v, hu, hv, rfl⟩ := Package.paragraphs?_cons_eq_ok h
      -- The paragraph is added to what was shown before, so the induction is for any progress.
      obtain ⟨s', hs', hout⟩ := ih hv (s.add (.text (u ++ ['\n'])))
      refine ⟨s', ?_, by simp [hout, Progress.add]⟩
      rw [showItems, Format.show?, hu]
      exact hs'

/-- **What is shown in the control format** of a source that was read to its end is the paragraphs of its
packages. -/
theorem out_report_control {trace : Trace} {ps : List Package} {out : Text}
    (h : trace.packages? = .ok ps) (hout : Package.paragraphs? ps = .ok out) (path : Text) :
    (trace.report .control path).out = out := by
  obtain ⟨items, failure⟩ := trace
  obtain ⟨rfl, rfl⟩ := Harvest.mk.inj (Trace.packages?_eq_ok.1 h)
  obtain ⟨s, hs, hflatten⟩ := showItems_control hout {}
  rw [Trace.report, hs]
  exact hflatten

/-- **Writing and reading.** The packages of a text, written as paragraphs, are read as the same packages
under the same selection, if their versions are plain and the line limit leaves room for the paragraphs. -/
theorem readText_paragraphs {m : FieldSet} {c c' : Config} {t out : Text} {ps : List Package}
    (h : (readText m c t).packages? = .ok ps) (hout : Package.paragraphs? ps = .ok out)
    (hplain : ∀ p ∈ ps, ∀ v, p.fullVersion = some v → v.IsPlain)
    (harch : c'.architectures = c.architectures) (hforced : c'.forced = c.forced)
    (hlimit : ∀ line ∈ out.rows, line.length ≤ c'.lineLimit)
    (hcount : Source.isCountable c'.lineLimit = true) :
    (readText m c' out).packages? = .ok ps := by
  have hpackages : (readText m c t).packages = ps :=
    congrArg Harvest.packages (Trace.packages?_eq_ok.1 h)
  have hnormal : ∀ p ∈ ps, p.Normal c'.architectures (.effective m c'.forced) ∧ p.name ≠ none := by
    intro p hp
    rw [harch, hforced]
    exact normal_of_readText (hpackages ▸ hp)
  refine readText_eq_ok_iff.2 ⟨hcount, hlimit, ?_⟩
  -- From here on only the form of the packages counts, not the text that they came from.
  clear h hpackages hlimit hcount
  induction ps generalizing out with
  | nil =>
    obtain rfl := Except.ok.inj hout
    rfl
  | cons p ps ih =>
    obtain ⟨u, v, hu, hv, rfl⟩ := Package.paragraphs?_cons_eq_ok hout
    obtain ⟨hp, hname⟩ := hnormal p List.mem_cons_self
    have hrest := ih hv (fun q hq => hplain q (List.mem_cons_of_mem p hq))
      fun q hq => hnormal q (List.mem_cons_of_mem p hq)
    rw [harvest_paragraph hp hname (hplain p List.mem_cons_self) hu, hrest]
    rfl

/-- Two records with values of many shapes: an epoch, a list, a status, a list of configuration files with
a description after it that ends with a line of a space, and a name without a text. The line limit is the
length of the longest line that is written. -/
theorem readText_paragraphs_two_records :
    let t : Text := ("Description: d\n  e\n \nDepends: b ,,c\nVersion: 01:2-3\nPackage: a\n" ++
      "Conffiles:\n /x  y\nStatus: install hold,ok installed\n\nPackage:\nSize: 0x1f").toList
    let out : Text := ("Package: a\nVersion: 1:2-3\nDepends: b, c\n" ++
      "Status: install hold installed\nConffiles:\n /x y\nDescription: d\n  e\n \n\n" ++
      "Package:\nSize: 31\n\n").toList
    let a : Package :=
      { name := some ['a'], epoch := 1, version := some ['2'], revision := some ['3']
        want := some .install, flags := some (.ofText "hold".toList), stage := some .installed
        depends := [['b'], ['c']], description := some "d\n  e\n ".toList
        conffiles := [⟨"/x".toList, ['y']⟩] }
    let b : Package := { name := some [], size := some 31 }
    (readText .full {} t).packages? = .ok [a, b] ∧ Package.paragraphs? [a, b] = .ok out ∧
      (readText .full { lineLimit := 30 } out).packages? = .ok [a, b] := by
  intro t out a b
  have h : (readText .full {} t).packages? = .ok [a, b] :=
    readText_eq_ok_iff.2 ⟨by decide, by decide +kernel, by decide +kernel⟩
  have hout : Package.paragraphs? [a, b] = .ok out := by decide +kernel
  refine ⟨h, hout, readText_paragraphs h hout ?_ rfl rfl (by decide +kernel) (by decide)⟩
  intro p hp v hv hepoch
  simp only [List.mem_cons, List.not_mem_nil, or_false] at hp
  rcases hp with rfl | rfl
  · obtain rfl := Option.some.inj hv
    cases hepoch
  · cases hv

/-- **Limits that cannot be counted.** A line limit can be so large that nothing is read, however short
the lines are. -/
theorem not_readText_paragraphs :
    ¬∀ (m : FieldSet) (c c' : Config) (t out : Text) (ps : List Package),
      (readText m c t).packages? = .ok ps → Package.paragraphs? ps = .ok out →
      (∀ p ∈ ps, ∀ v, p.fullVersion = some v → v.IsPlain) →
      c'.architectures = c.architectures → c'.forced = c.forced →
      (∀ line ∈ out.rows, line.length ≤ c'.lineLimit) →
      (readText m c' out).packages? = .ok ps := by
  intro h
  let c' : Config := { lineLimit := 9223372036854775807 }
  have hempty : (readText .full {} []).packages? = .ok [] :=
    readText_eq_ok_iff.2 ⟨by decide, by simp, rfl⟩
  have hread := h .full {} c' [] [] [] hempty rfl (by simp) rfl rfl (by simp)
  exact absurd (readText_eq_ok_iff.1 hread).1 (by decide)

end ControlFile

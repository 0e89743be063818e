import ControlFile.Proofs.Attribution

/-!
# Relations on one line and on several

A list of relations is written with commas between its items, and a record may give one attribute of
relations on several lines. How the items are spread over lines does not matter: the lines are read like one
line with commas between their values.

For the lists themselves, `Text.items_append` says that a comma divides a list into two lists,
`Text.mem_items` what an item is, and `Text.items_join` that items which are joined are read back. For a
record there are two statements.

* Lines of the attribute that follow each other can be put together anywhere in a text
  (`readText_relationLines`). What such lines do to a session is said at once for all of them
  (`Session.reads_relationLines`): the open block ends, and the items of all values go to the end of the
  attribute (`Session.addRelations`).
* Lines of the attribute that stand apart leave the same list as one line with their values, wherever that
  line stands (`getRelation_eq_of_join`), since no other line has a say in it.
-/

namespace ControlFile

/-- The line that gives an attribute of relations this value. -/
def Relation.line (a : Relation) (value : Text) : Text := a.field.name ++ ':' :: value

namespace Relation

variable {a : Relation} {value : Text}

/-- Such a line is a header of its field, whatever stands behind the colon. -/
theorem ofLine?_line (a : Relation) (value : Text) :
    Header.ofLine? (a.line value) = some ⟨a.field.name, a.field⟩ :=
  Header.ofLine?_eq_some_iff.2 ⟨Header.mem_catalogue a.field, Header.heads_iff.2 ⟨value, rfl⟩⟩

/-- Its value is what stands behind the colon, without the blanks around it. -/
theorem valueAfter_line (a : Relation) (value : Text) :
    Header.valueAfter a.field.name (a.line value) = value.trim := by
  simp [Header.valueAfter, line]

theorem newline_not_mem_line (h : '\n' ∉ value) : '\n' ∉ a.line value := by
  have hname : '\n' ∉ a.field.name := by cases a <;> decide
  simp [line, hname, h]

/-- The items that are read from the values of an attribute: none if its field is not selected. -/
def itemsOf (a : Relation) (mask : FieldSet) (values : List Text) : List Text :=
  if a.field ∈ mask then values.flatMap (Text.items ',') else []

/-- The items of the first value come before those of the others. -/
theorem itemsOf_cons (mask : FieldSet) (value : Text) (values : List Text) :
    a.itemsOf mask (value :: values) = a.itemsOf mask [value] ++ a.itemsOf mask values := by
  unfold itemsOf
  split <;> simp

/-- One line with commas between the values has the items of all of them. -/
theorem itemsOf_join (mask : FieldSet) (values : List Text) :
    a.itemsOf mask [Text.join [','] values] = a.itemsOf mask values := by
  unfold itemsOf
  rw [List.flatMap_singleton, Text.items_join_eq_flatMap rfl List.not_mem_nil]

theorem length_line_le {whole : Text} (h : value.length ≤ whole.length) :
    (a.line value).length ≤ (a.line whole).length := by
  simp [line, h]

end Relation

namespace Package

theorem setRelation_getRelation (p : Package) (a : Relation) :
    p.setRelation a (p.getRelation a) = p := by
  cases a <;> rfl

theorem setRelation_setRelation (p : Package) (a : Relation) (xs ys : List Text) :
    (p.setRelation a xs).setRelation a ys = p.setRelation a ys := by
  cases a <;> rfl

end Package

/-! ### Lines that follow each other -/

namespace Session

variable {s : Session} {a : Relation} {values : List Text}

/-- The session after lines that give an attribute these relations. Its open block has ended. -/
def addRelations (s : Session) (a : Relation) (xs : List Text) : Session :=
  { s.close with package := s.close.package.setRelation a (s.close.package.getRelation a ++ xs) }

/-- It does not matter whether the block ends before or after the relations are stored. -/
theorem close_setRelation (s : Session) (a : Relation) (xs : List Text) :
    { s with package := s.package.setRelation a (s.package.getRelation a ++ xs) }.close =
      s.addRelations a xs := by
  obtain ⟨package, mask, architectures, phase⟩ := s
  cases phase <;> cases a <;> rfl

@[simp] theorem addRelations_mask (s : Session) (a : Relation) (xs : List Text) :
    (s.addRelations a xs).mask = s.mask :=
  s.close_mask

/-- Without any items only the open block ends. -/
theorem addRelations_nil (s : Session) (a : Relation) : s.addRelations a [] = s.close := by
  rw [addRelations, List.append_nil, Package.setRelation_getRelation]

theorem close_addRelations (hs : s.finished = false) (xs : List Text) :
    (s.addRelations a xs).close = s.addRelations a xs :=
  close_of_idle (close_phase hs)

theorem finished_addRelations (hs : s.finished = false) (xs : List Text) :
    (s.addRelations a xs).finished = false := by
  have hphase : (s.addRelations a xs).phase = .idle := close_phase hs
  simp [finished, hphase]

/-- Items that are added one after the other are added together. -/
theorem addRelations_addRelations (hs : s.finished = false) (xs ys : List Text) :
    (s.addRelations a xs).addRelations a ys = s.addRelations a (xs ++ ys) := by
  rw [addRelations, close_addRelations hs]
  simp only [addRelations, Package.getRelation_setRelation, Package.setRelation_setRelation,
    List.append_assoc]

/-- A line of relations is never refused, and it ends the open block also if it is passed over. -/
theorem step_relationLine (hs : s.finished = false) (value : Text) :
    s.Step (a.line value) (s.addRelations a (a.itemsOf s.mask [value])) .goesOn := by
  have hl := a.ofLine?_line value
  by_cases hm : a.field ∈ s.mask
  · -- The field is selected, and its value goes to the attribute. The blanks around the value make no
    -- difference to its items.
    have hh : s.header? (a.line value) = some ⟨a.field.name, a.field⟩ := by
      simp [header?, hl, Option.filter, hm]
    have hput : s.package.put s.architectures (.relation a)
          (Header.valueAfter a.field.name (a.line value)) =
        .ok { package := s.package.setRelation a (s.package.getRelation a ++ a.itemsOf s.mask [value]) } := by
      rw [a.valueAfter_line, Relation.itemsOf, if_pos hm, List.flatMap_singleton, ← Text.items_trim rfl]
      rfl
    rw [← close_setRelation]
    exact .single hs hh (Slot.kind_field (.relation a)) hput
  · have hh : s.header? (a.line value) = none := by simp [header?, hl, Option.filter, hm]
    -- The line is neither of a block nor blank, since it is a header, if of a field that is left out.
    have hbody : s.isBody (a.line value) = false := by
      rw [Bool.eq_false_iff]
      intro hb
      rw [Header.ofLine?_of_space (head?_of_isBody hb)] at hl
      cases hl
    have hblank : (a.line value).allBlank = false := by
      rw [Bool.eq_false_iff]
      intro hb
      rw [Header.ofLine?_of_allBlank hb] at hl
      cases hl
    rw [Relation.itemsOf, if_neg hm, addRelations_nil]
    exact .other hs hbody hblank hh

/-- **Lines of relations that follow each other** end the open block and add the items of all their
values. -/
theorem reads_relationLines (hs : s.finished = false) (hne : values ≠ []) :
    s.Reads (values.map a.line) (s.addRelations a (a.itemsOf s.mask values)) := by
  induction values generalizing s with
  | nil => exact absurd rfl hne
  | cons value values ih =>
    have hfirst := step_relationLine (a := a) hs value
    cases values with
    | nil => exact .single hfirst (.inl rfl)
    | cons next values =>
      -- The induction goes on from the session after the first line, where no block is open any more.
      have hmore := ih (finished_addRelations (a := a) hs (a.itemsOf s.mask [value]))
        (List.cons_ne_nil next values)
      rw [addRelations_mask, addRelations_addRelations hs, ← Relation.itemsOf_cons] at hmore
      exact .cons hfirst (.inl rfl) hmore

/-- The harvest of such lines is that of the one line with commas between their values. -/
theorem harvest_relationLines {fresh : Session} {more : List Text} {last : Option Error}
    (hs : s.finished = false) (hne : values ≠ []) :
    s.harvest fresh (values.map a.line ++ more) last =
      s.harvest fresh (a.line (Text.join [','] values) :: more) last := by
  have hone : s.Reads [a.line (Text.join [','] values)]
      (s.addRelations a (a.itemsOf s.mask [Text.join [','] values])) :=
    .single (step_relationLine hs _) (.inl rfl)
  rw [(reads_relationLines hs hne).harvest, ← List.singleton_append, hone.harvest, Relation.itemsOf_join]

end Session

/-- A text is no longer than one that it is joined into. -/
theorem Text.length_le_length_join {sep value : Text} {values : List Text} (h : value ∈ values) :
    value.length ≤ (join sep values).length := by
  induction values with
  | nil => cases h
  | cons v values ih =>
    -- The last text has no separator behind it.
    cases values with
    | nil => rw [List.mem_singleton.1 h, join_singleton]
    | cons u values =>
      rw [join_cons_cons, List.length_append, List.length_append]
      rcases List.mem_cons.1 h with rfl | h
      · omega
      · have := ih h
        omega

variable {m : FieldSet} {c : Config} {a : Relation}

/-- **Lines of relations that follow each other** can be put together with commas, wherever they stand in a
text. The line that comes of it has to be within the limit. -/
theorem readText_relationLines {before values : List Text} {rest : Text} {ps : List Package}
    (hne : values ≠ []) (hbefore : ∀ line ∈ before, '\n' ∉ line) (hvalues : ∀ v ∈ values, '\n' ∉ v)
    (hlimit : (a.line (Text.join [','] values)).length ≤ c.lineLimit) :
    (readText m c (Text.ofRows (before ++ values.map a.line) ++ rest)).packages? = .ok ps ↔
      (readText m c (Text.ofRows (before ++ [a.line (Text.join [','] values)]) ++ rest)).packages? =
        .ok ps := by
  let joined := a.line (Text.join [','] values)
  -- The rows of both texts are those before the lines, the lines and the rows of the rest.
  have hrows : ∀ lines : List Text, (∀ line ∈ lines, '\n' ∉ line) →
      Text.rows (Text.ofRows (before ++ lines) ++ rest) = before ++ (lines ++ Text.rows rest) := by
    intro lines hlines
    rw [Text.rows_ofRows_append, List.append_assoc]
    exact List.forall_mem_append.2 ⟨hbefore, hlines⟩
  have hmany := hrows (values.map a.line) (List.forall_mem_map.2 fun v hv =>
    Relation.newline_not_mem_line (hvalues v hv))
  have hone := hrows [joined] (List.forall_mem_singleton.2
    (Relation.newline_not_mem_line (Text.not_mem_join (by decide) hvalues)))
  -- The other lines of the two texts are the same, and none of these is longer than the joined one.
  have hshort : ∀ line ∈ values.map a.line, line.length ≤ c.lineLimit :=
    List.forall_mem_map.2 fun v hv =>
      (Relation.length_line_le (Text.length_le_length_join hv)).trans hlimit
  have hall : (∀ line ∈ before ++ (values.map a.line ++ Text.rows rest), line.length ≤ c.lineLimit) ↔
      ∀ line ∈ before ++ ([joined] ++ Text.rows rest), line.length ≤ c.lineLimit := by
    simp only [List.forall_mem_append, List.forall_mem_singleton]
    exact and_congr_right' (and_congr_left' (iff_of_true hshort hlimit))
  rw [readText_eq_ok_iff, readText_eq_ok_iff, hmany, hone, hall,
    Session.harvest_append_congr rfl rfl fun s hs => Session.harvest_relationLines hs hne]
  rfl

/-! ### Lines that stand apart -/

/-- **Lines of relations anywhere in a record** leave the list that one line with their values leaves in
another record, wherever it stands there and whatever else is in the two records. -/
theorem getRelation_eq_of_join {lines lines' values : List Text} {s s' : Session}
    (h : (Session.start {} m c).feedAll lines = .ok s)
    (h' : (Session.start {} m c).feedAll lines' = .ok s')
    (hvalues : lines.filterMap a.field.valueIn? = values.map Text.trim)
    (hjoined : lines'.filterMap a.field.valueIn? = [(Text.join [','] values).trim]) :
    s'.finish.package.getRelation a = s.finish.package.getRelation a := by
  have hitems : (values.map Text.trim).flatMap (Text.items ',') = values.flatMap (Text.items ',') := by
    rw [List.flatMap_map]
    exact List.flatMap_congr fun v _ => Text.items_trim rfl v
  rw [getRelation_feedAll h, getRelation_feedAll h', Field.valuesIn, Field.valuesIn, hvalues, hjoined]
  split
  · rw [List.flatMap_singleton, Text.items_trim rfl, Text.items_join_eq_flatMap rfl List.not_mem_nil,
      hitems]
  · rfl

/-- **Items are merged across commas and across lines.** A list with a comma in it has the items before the
comma and then those behind it. Items are not empty and have neither a comma in them nor blanks around them;
such items are read back after they were joined, so that a list which was read and joined is read as before.
And a record that gives an attribute of relations on several lines has the list of a record with one line
instead, on which the values have commas between them; where the lines follow each other, the one line can
stand for them in any text. -/
theorem items_mergeAcrossLines (m : FieldSet) (c : Config) (a : Relation) :
    (∀ x y : Text, Text.items ',' (x ++ ',' :: y) = Text.items ',' x ++ Text.items ',' y) ∧
    (∀ x : Text, ∀ item ∈ Text.items ',' x, item ≠ [] ∧ ',' ∉ item ∧ item.trim = item) ∧
    (∀ xs : List Text, (∀ item ∈ xs, item ≠ [] ∧ ',' ∉ item ∧ item.trim = item) →
      Text.items ',' (Text.join [',', ' '] xs) = xs) ∧
    (∀ x : Text, Text.items ',' (Text.join [',', ' '] (Text.items ',' x)) = Text.items ',' x) ∧
    (∀ (lines lines' values : List Text) (s s' : Session),
      (Session.start {} m c).feedAll lines = .ok s → (Session.start {} m c).feedAll lines' = .ok s' →
      lines.filterMap a.field.valueIn? = values.map Text.trim →
      lines'.filterMap a.field.valueIn? = [(Text.join [','] values).trim] →
      s'.finish.package.getRelation a = s.finish.package.getRelation a) ∧
    ∀ (before values : List Text) (rest : Text) (ps : List Package), values ≠ [] →
      (∀ line ∈ before, '\n' ∉ line) → (∀ v ∈ values, '\n' ∉ v) →
      (a.line (Text.join [','] values)).length ≤ c.lineLimit →
      ((readText m c (Text.ofRows (before ++ values.map a.line) ++ rest)).packages? = .ok ps ↔
        (readText m c (Text.ofRows (before ++ [a.line (Text.join [','] values)]) ++ rest)).packages? =
          .ok ps) := by
  have hitem : ∀ x : Text, ∀ item ∈ Text.items ',' x, Text.IsItem ',' item := fun x item h =>
    (Text.mem_items h).1
  refine ⟨Text.items_append, fun x item h => ?_, fun xs h => ?_, fun x => ?_, ?_, ?_⟩
  · obtain ⟨hne, htrimmed, hcomma⟩ := hitem x item h
    exact ⟨hne, hcomma, htrimmed.trim_eq⟩
  · refine Text.items_join rfl (by decide) fun item hmem => ?_
    obtain ⟨hne, hcomma, htrim⟩ := h item hmem
    exact ⟨hne, htrim ▸ Text.trimmed_trim item, hcomma⟩
  · exact Text.items_join rfl (by decide) (hitem x)
  · intro lines lines' values s s' h h' hvalues hjoined
    exact getRelation_eq_of_join h h' hvalues hjoined
  · intro before values rest ps hne hbefore hvalues hlimit
    exact readText_relationLines hne hbefore hvalues hlimit

/-- Two lines with another field between them, one of them with an empty item, and a line of a description
that looks like a third one; and two lines that follow each other in a text of two records. -/
theorem items_mergeAcrossLines_two_lines :
    let lines : List Text := ["Package: p", "Depends: a (>= 1),,b", "Description: d", " Depends: x",
      "Depends: , c", ""].map String.toList
    let lines' : List Text := ["Depends: a (>= 1),,b,, c", "Package: q"].map String.toList
    let values : List Text := ["a (>= 1),,b".toList, ", c".toList]
    let before : List Text := ["Package: p".toList]
    let rest : Text := "Size: 1\n\nPackage: q".toList
    let p : Package :=
      { name := some ['p'], depends := ["a (>= 1)".toList, ['b'], ['c']], size := some 1 }
    let q : Package := { name := some ['q'] }
    Text.items ',' (Text.join [',', ' '] p.depends) = p.depends ∧
      (∃ s s', (Session.start {} .full {}).feedAll lines = .ok s ∧
        (Session.start {} .full {}).feedAll lines' = .ok s' ∧
        s'.finish.package.depends = s.finish.package.depends) ∧
      (readText .full {} (Text.ofRows (before ++ values.map Relation.depends.line) ++ rest)).packages? =
        .ok [p, q] := by
  intro lines lines' values before rest p q
  obtain ⟨-, -, hread, -, hapart, htext⟩ := items_mergeAcrossLines .full {} .depends
  refine ⟨hread p.depends (by decide), ?_, (htext before values rest [p, q] ?_ ?_ ?_ ?_).2 ?_⟩
  · have hread : ((Session.start {} .full {}).feedAll lines).toOption.isSome = true := by decide +kernel
    have hread' : ((Session.start {} .full {}).feedAll lines').toOption.isSome = true := by decide +kernel
    obtain ⟨s, hs⟩ := Session.exists_feedAll_eq_ok hread
    obtain ⟨s', hs'⟩ := Session.exists_feedAll_eq_ok hread'
    exact ⟨s, s', hs, hs', hapart lines lines' values s s' hs hs' (by decide) (by decide)⟩
  · decide
  · decide
  · decide
  · decide
  · exact readText_eq_ok_iff.2 ⟨by decide, by decide +kernel, by decide +kernel⟩

end ControlFile

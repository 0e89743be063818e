import ControlFile.Proofs.Feeding

/-!
# What the lines of a field leave in a record

`Field.valuesIn` lists the values that lines give a field: for each line whose text before the first
colon is one of the field's names, the text after the colon without the blanks around it. Nothing is
known here of sessions, blocks, or which lines were accepted.

The attributes of a record are what these values make of them, for each kind of slot in its own way, and
no line of another field has a say in it (`feedAll_isMadeOf`). Of most values the last one counts, but
switches are not overwritten: once a value has turned one on it stays on
(`getSwitch_feedAll_eq_last_iff`).

The proof looks at a record through one slot at a time. What a slot shows is left alone by the lines of
all other fields, which `Package.restrict` says already, and is changed by a line of its own field as
`put` says (`Slot.Shows`). So along a run it is a fold over the values of that field
(`Slot.Shows.feedAll`).
-/

namespace ControlFile

/-! ### The values of a field -/

namespace Field

/-- The value that a line gives a field. -/
def valueIn? (f : Field) (line : Text) : Option Text :=
  (Text.cut? ':' line).bind fun (name, rest) =>
    if (Header.named? name).any (·.field = f) then some rest.trim else none

/-- The values that lines give a field, in order. A field that is not selected has none. -/
def valuesIn (f : Field) (mask : FieldSet) (lines : List Text) : List Text :=
  if f ∈ mask then lines.filterMap f.valueIn? else []

variable {f : Field} {mask : FieldSet} {line : Text} {lines : List Text}

/-- A header gives its own field the value behind its colon, and gives no other field a value. -/
theorem valueIn?_of_ofLine? {h : Header} (hl : Header.ofLine? line = some h) :
    f.valueIn? line = if h.field = f then some (Header.valueAfter h.name line) else none := by
  obtain ⟨hm, hheads⟩ := Header.ofLine?_eq_some_iff.1 hl
  obtain ⟨rest, rfl⟩ := Header.heads_iff.1 hheads
  have hcut := Text.cut?_append_cons rest (Header.colon_not_mem_name h hm)
  have hvalue : Header.valueAfter h.name (h.name ++ ':' :: rest) = Text.trim rest := by
    simp [Header.valueAfter]
  rw [valueIn?, hcut, Option.bind_some, hvalue]
  simp [Header.named?_name h hm]

/-- A line without a known name in front of a colon gives no field a value. -/
theorem valueIn?_of_ofLine?_eq_none (hl : Header.ofLine? line = none) : f.valueIn? line = none := by
  rw [Header.ofLine?, Option.bind_eq_none_iff] at hl
  rw [valueIn?, Option.bind_eq_none_iff]
  -- Both look for a name before the first colon, so a line that is no header has none to find.
  rintro ⟨name, rest⟩ hcut
  have hnamed : Header.named? name = none := hl (name, rest) hcut
  simp [hnamed]

theorem valuesIn_nil : f.valuesIn mask [] = [] := by simp [valuesIn]

/-- The value of the first line comes first, if the field is selected and the line has one. -/
theorem valuesIn_cons :
    f.valuesIn mask (line :: lines) =
      ((f.valueIn? line).filter fun _ => f ∈ mask).toList ++ f.valuesIn mask lines := by
  unfold valuesIn
  by_cases hf : f ∈ mask
  · cases hv : f.valueIn? line <;> simp [hf, hv, Option.filter]
  · cases f.valueIn? line <;> simp [hf, Option.filter]

theorem valuesIn_append {rest : List Text} :
    f.valuesIn mask (lines ++ rest) = f.valuesIn mask lines ++ f.valuesIn mask rest := by
  unfold valuesIn
  split
  · exact List.filterMap_append
  · rfl

theorem mem_valuesIn {value : Text} (h : value ∈ f.valuesIn mask lines) :
    f ∈ mask ∧ ∃ line ∈ lines, f.valueIn? line = some value := by
  unfold valuesIn at h
  split at h
  · rename_i hf
    exact ⟨hf, List.mem_filterMap.1 h⟩
  · cases h

/-- A selected header gives its field a value. -/
theorem filter_valueIn?_of_header? {s : Session} {h : Header} (hh : s.header? line = some h) :
    ((f.valueIn? line).filter fun _ => f ∈ s.mask) =
      if h.field = f then some (Header.valueAfter h.name line) else none := by
  obtain ⟨hl, hmem⟩ := Option.filter_eq_some_iff.1 hh
  rw [valueIn?_of_ofLine? hl]
  by_cases hf : h.field = f
  · subst hf
    rw [if_pos rfl, Option.filter, if_pos (by simpa using hmem)]
  · rw [if_neg hf]
    rfl

/-- A line that is no selected header gives no field a value that is read. -/
theorem filter_valueIn?_of_header?_eq_none {s : Session} (hh : s.header? line = none) :
    ((f.valueIn? line).filter fun _ => f ∈ s.mask) = none := by
  cases hl : Header.ofLine? line with
  | none =>
    rw [valueIn?_of_ofLine?_eq_none hl]
    rfl
  | some h =>
    rw [Session.header?, hl, Option.filter_eq_none_iff] at hh
    have hmem : h.field ∉ s.mask := by simpa using hh h rfl
    rw [valueIn?_of_ofLine? hl]
    by_cases hf : h.field = f
    · -- The line is a header of the field, which is not selected.
      subst hf
      simp [Option.filter, hmem]
    · simp [hf]

end Field

/-! ### Looking at one slot -/

/-- The field of a slot is stored there. -/
theorem Slot.kind_field (slot : Slot) : slot.field.kind = .single slot := by
  cases slot with
  | text a | number a | switch a | relation a => cases a <;> rfl
  | architecture | version | status => rfl

/-- A field is stored in one slot only. -/
theorem Slot.eq_of_kind {slot slot' : Slot} (h : slot.field.kind = .single slot') : slot' = slot := by
  rw [slot.kind_field] at h
  exact (Kind.single.inj h).symm

/-- A field that has a block is stored in no slot. -/
theorem Slot.ne_field {slot : Slot} {f : Field} (h : ∀ slot', f.kind ≠ .single slot') : f ≠ slot.field := by
  rintro rfl
  exact h slot slot.kind_field

@[simp] theorem Slot.field_text (a : TextAttribute) : (Slot.text a).field = a.field := rfl

@[simp] theorem Slot.field_switch (a : Switch) : (Slot.switch a).field = a.field := rfl

@[simp] theorem Slot.field_relation (a : Relation) : (Slot.relation a).field = a.field := rfl

/-- A view of records that shows a slot and nothing else, and that changes by `store` when a value is
stored in the slot. -/
structure Slot.Shows {β : Type} (slot : Slot) (entries : List ArchPriority) (view : Package → β)
    (store : β → Text → β) : Prop where
  /-- The attributes of all other fields are not seen. -/
  restrict (p : Package) : view (p.restrict (.single slot.field)) = view p
  /-- What is stored is seen. -/
  put {p : Package} {value : Text} {built : Built} :
    p.put entries slot value = .ok built → view built.package = store (view p) value

namespace Slot.Shows

variable {β : Type} {slot : Slot} {view : Package → β} {store : β → Text → β} {s s' : Session}
  {line : Text} {lines : List Text} {o : Outcome}

theorem view_eq {entries : List ArchPriority} (hv : slot.Shows entries view store) {p q : Package}
    (h : p.restrict (.single slot.field) = q.restrict (.single slot.field)) : view p = view q := by
  rw [← hv.restrict p, h, hv.restrict q]

/-- A description is not seen. -/
theorem view_setDescription {entries : List ArchPriority} (hv : slot.Shows entries view store)
    (p : Package) (d : Option Text) : view { p with description := d } = view p := by
  apply hv.view_eq
  rw [Package.setDescription_restrict, if_neg]
  rw [FieldSet.mem_single]
  exact Slot.ne_field fun _ hk => by cases hk

/-- The end of a block changes a description at most. -/
theorem view_close {entries : List ArchPriority} (hv : slot.Shows entries view store)
    (s : Session) : view s.close.package = view s.package := by
  unfold Session.close
  split
  · exact hv.view_setDescription _ _
  all_goals rfl

/-- A list of configuration files is not seen either. -/
theorem view_addConffile {entries : List ArchPriority} (hv : slot.Shows entries view store)
    (p : Package) (line : Text) : view (p.addConffile line).package = view p := by
  apply hv.view_eq
  apply Package.addConffile_restrict_of_not_mem
  rw [FieldSet.mem_single]
  exact Slot.ne_field fun _ hk => by cases hk

/-- A value that is stored is seen if it is stored in the slot. -/
theorem view_put {entries : List ArchPriority} (hv : slot.Shows entries view store) {p : Package}
    {f : Field} {slot' : Slot} {value : Text} {built : Built} (hk : f.kind = .single slot')
    (hput : p.put entries slot' value = .ok built) :
    view built.package = if f = slot.field then store (view p) value else view p := by
  by_cases hf : f = slot.field
  · obtain rfl : slot' = slot := Slot.eq_of_kind (hf ▸ hk)
    rw [if_pos hf]
    exact hv.put hput
  · -- The value goes to the slot of its own field, which is another one.
    rw [if_neg hf]
    apply hv.view_eq
    apply Package.put_restrict_of_not_mem _ hput
    rwa [FieldSet.mem_single, Field.slot_field hk]

/-- **One line.** It is seen when it is a header of the slot's field, and then its value is stored. -/
theorem step (hv : slot.Shows s.architectures view store) (h : s.Step line s' o)
    (hs : s.finished = false) (ho : ∀ cause, o ≠ .refused cause) :
    view s'.package =
      ((slot.field.valueIn? line).filter fun _ => slot.field ∈ s.mask).toList.foldl store
        (view s.package) := by
  -- What the slot shows is left alone by a line that is no selected header, and stored into by a header
  -- if its field is the one of the slot.
  have hnone (hh : s.header? line = none) :
      ((slot.field.valueIn? line).filter fun _ => slot.field ∈ s.mask).toList.foldl store
        (view s.package) = view s.package := by
    rw [Field.filter_valueIn?_of_header?_eq_none hh]
    rfl
  have hheader {h : Header} (hh : s.header? line = some h) :
      ((slot.field.valueIn? line).filter fun _ => slot.field ∈ s.mask).toList.foldl store
        (view s.package) =
        if h.field = slot.field then store (view s.package) (Header.valueAfter h.name line)
        else view s.package := by
    rw [Field.filter_valueIn?_of_header? hh]
    split <;> rfl
  have hbody (hb : s.isBody line = true) : s.header? line = none :=
    Session.header?_of_space (Session.head?_of_isBody hb)
  cases h with
  | late hf => simp [hf] at hs
  | refused => exact absurd rfl (ho _)
  | text hp hb => exact (hnone (hbody hb)).symm
  | file hp hb =>
    rw [hnone (hbody hb)]
    exact hv.view_addConffile s.package line
  | blank hf hb hl =>
    rw [hnone (Session.header?_of_allBlank hl)]
    exact hv.view_close s
  | other hf hb hl hh =>
    rw [hnone hh]
    exact hv.view_close s
  | single hf hh hk hput =>
    rw [hv.view_close, hheader hh]
    exact hv.view_put hk hput
  | description hf hh hk | conffiles hf hh hk =>
    rw [hheader hh, if_neg (Slot.ne_field (by simp [hk]))]
    exact hv.view_close s

/-- **All lines of a record.** What a slot shows at its end is a fold over the values of its field. -/
theorem feedAll (hv : slot.Shows s.architectures view store) (hs : s.finished = false)
    (h : s.feedAll lines = .ok s') :
    view s'.finish.package = (slot.field.valuesIn s.mask lines).foldl store (view s.package) := by
  induction lines generalizing s with
  | nil =>
    obtain rfl := Except.ok.inj h
    rw [Field.valuesIn_nil]
    exact hv.view_close s
  | cons line lines ih =>
    obtain ⟨s₁, o, hstep, ho, hlines⟩ := Session.feedAll_cons_eq_ok.1 h
    rw [Field.valuesIn_cons, List.foldl_append, ← hv.step hstep hs ho]
    rcases hstep.ended_or_goesOn ho with ⟨-, hf⟩ | ⟨-, hf⟩
    · -- The record has ended with this line, so there is no other.
      obtain ⟨rfl, rfl⟩ := Session.eq_nil_of_feedAll hf hlines
      rw [Field.valuesIn_nil]
      exact hv.view_close s'
    · rw [← hstep.mask_eq]
      rw [← hstep.architectures_eq] at hv
      exact ih hv hf hlines

end Slot.Shows

/-! ### What each kind of slot shows -/

/-- The last of the written values, where some are written and others pass. -/
theorem foldl_getD_eq {α β : Type} (write : α → Option β) (xs : List α) (init : β) :
    xs.foldl (fun b x => (write x).getD b) init = (xs.filterMap write).getLast?.getD init := by
  induction xs generalizing init with
  | nil => rfl
  | cons x xs ih =>
    rw [List.foldl_cons, ih]
    -- A value that is not written leaves the start as it was for those after it, and one that is becomes
    -- the new start.
    cases hw : write x with
    | none => simp [hw]
    | some b => simp [hw, List.getLast?_cons]

/-- A switch that each matching value turns on is on if it was, or if one of the values matches. -/
theorem foldl_or_eq_true_iff {α : Type} [DecidableEq α] {xs : List α} {a : α} {init : Bool} :
    xs.foldl (fun b x => b || decide (x = a)) init = true ↔ init = true ∨ a ∈ xs := by
  induction xs generalizing init with
  | nil => simp
  | cons x xs ih =>
    rw [List.foldl_cons, ih, Bool.or_eq_true, decide_eq_true_iff, List.mem_cons, or_assoc,
      eq_comm (a := a)]

namespace Package

variable {entries : List ArchPriority}

theorem shows_text (a : TextAttribute) :
    (Slot.text a).Shows entries (·.getText a) fun b value => (some (some value)).getD b where
  restrict p := by cases a <;> simp [Slot.field, TextAttribute.field, restrict, getText]
  put hput := by
    obtain rfl := Except.ok.inj hput
    exact getText_setText _ a _

/-- A switch is turned on by `yes`, and by no value turned off. -/
theorem shows_switch (a : Switch) :
    (Slot.switch a).Shows entries (·.getSwitch a) fun b value => b || value = "yes".toList where
  restrict p := by cases a <;> simp [Slot.field, Switch.field, restrict, getSwitch]
  put {p value built} hput := by
    obtain rfl := Except.ok.inj hput
    unfold putSwitch
    by_cases hyes : value = "yes".toList
    · rw [if_pos hyes, getSwitch_setSwitch, decide_eq_true hyes, Bool.or_true]
    · rw [if_neg hyes, decide_eq_false hyes, Bool.or_false]

theorem shows_relation (a : Relation) :
    (Slot.relation a).Shows entries (·.getRelation a) fun b value => b ++ value.items ',' where
  restrict p := by cases a <;> simp [Slot.field, Relation.field, restrict, getRelation]
  put hput := by
    obtain rfl := Except.ok.inj hput
    exact getRelation_setRelation _ a _

end Package

variable {m : FieldSet} {c : Config} {lines : List Text} {s : Session}

/-- A fresh record shows what is made of the values of the slot's field. -/
theorem Slot.Shows.feedAll_start {β : Type} {slot : Slot} {view : Package → β} {store : β → Text → β}
    (hv : slot.Shows c.architectures view store)
    (h : (Session.start {} m c).feedAll lines = .ok s) :
    view s.finish.package =
      (slot.field.valuesIn (.effective m c.forced) lines).foldl store (view {}) :=
  hv.feedAll rfl h

/-- Where values replace each other, the last one that is written counts. -/
theorem Slot.Shows.getLast?_feedAll {β : Type} {slot : Slot} {view : Package → β}
    {write : Text → Option β}
    (hv : slot.Shows c.architectures view fun b value => (write value).getD b)
    (h : (Session.start {} m c).feedAll lines = .ok s) :
    view s.finish.package =
      (((slot.field.valuesIn (.effective m c.forced) lines).filterMap write).getLast?).getD
        (view {}) := by
  rw [hv.feedAll_start h, foldl_getD_eq]

/-- The values of a record are none of those that their slot cannot take, since no line was refused. -/
theorem Slot.refusal?_of_feedAll {slot : Slot} {value : Text}
    (h : (Session.start {} m c).feedAll lines = .ok s)
    (hvalue : value ∈ slot.field.valuesIn (.effective m c.forced) lines) :
    slot.refusal? value = none := by
  obtain ⟨hmem, line, hline, hval⟩ := Field.mem_valuesIn hvalue
  have hnone := Session.refusal?_of_feedAll rfl h line hline
  cases hl : Header.ofLine? line with
  | none =>
    rw [Field.valueIn?_of_ofLine?_eq_none hl] at hval
    cases hval
  | some hd =>
    rw [Field.valueIn?_of_ofLine? hl] at hval
    split_ifs at hval with hfield
    -- The line is a selected header of the slot's field, so the session would refuse it for its value.
    have hheader : (Session.start {} m c).header? line = some hd :=
      Option.filter_eq_some_iff.2 ⟨hl, by rw [hfield]; exact decide_eq_true hmem⟩
    rw [Session.refusal?_of_header? hheader, hfield, slot.kind_field, Option.some.inj hval] at hnone
    exact hnone

/-- A text attribute is the last value of its field. -/
theorem getText_feedAll (h : (Session.start {} m c).feedAll lines = .ok s) (a : TextAttribute) :
    s.finish.package.getText a = (a.field.valuesIn (.effective m c.forced) lines).getLast? := by
  have hview := (Package.shows_text a).getLast?_feedAll h
  have hfresh : Package.getText {} a = none := by cases a <;> rfl
  rw [hfresh, List.filterMap_eq_map', List.getLast?_map, Slot.field_text] at hview
  rw [hview]
  cases (a.field.valuesIn (.effective m c.forced) lines).getLast? <;> rfl

/-- A switch is on if one of the values turns it on. -/
theorem getSwitch_feedAll (h : (Session.start {} m c).feedAll lines = .ok s) (a : Switch) :
    s.finish.package.getSwitch a = true ↔
      "yes".toList ∈ a.field.valuesIn (.effective m c.forced) lines := by
  have hview := (Package.shows_switch a).feedAll_start h
  have hfresh : Package.getSwitch {} a = false := by cases a <;> rfl
  rw [hview, hfresh, foldl_or_eq_true_iff, Slot.field_switch]
  simp

/-- A relation has the items of all values, in order. -/
theorem getRelation_feedAll (h : (Session.start {} m c).feedAll lines = .ok s) (a : Relation) :
    s.finish.package.getRelation a =
      (a.field.valuesIn (.effective m c.forced) lines).flatMap (Text.items ',') := by
  have hview := (Package.shows_relation a).feedAll_start h
  have hfresh : Package.getRelation {} a = [] := by cases a <;> rfl
  -- A new record has no items before those of the values.
  rw [hfresh, List.foldl_append_eq_append, List.nil_append, Slot.field_relation] at hview
  exact hview

/-- **A switch that is on stays on.** What turns it on is some value `yes`, wherever it stands, and lines that
follow do not turn it off again. So whether it is on is what the last value of its field says exactly if that
value is `yes` or none is. -/
theorem getSwitch_feedAll_eq_last_iff (h : (Session.start {} m c).feedAll lines = .ok s) (a : Switch) :
    let values := a.field.valuesIn (.effective m c.forced) lines
    (s.finish.package.getSwitch a = true ↔ "yes".toList ∈ values) ∧
      (∀ before rest s₁, lines = before ++ rest → (Session.start {} m c).feedAll before = .ok s₁ →
        s₁.finish.package.getSwitch a = true → s.finish.package.getSwitch a = true) ∧
      ((s.finish.package.getSwitch a = true ↔ values.getLast? = some "yes".toList) ↔
        ("yes".toList ∈ values → values.getLast? = some "yes".toList)) := by
  intro values
  have hon := getSwitch_feedAll h a
  refine ⟨hon, ?_, ?_⟩
  · rintro before rest s₁ rfl hbefore hon₁
    rw [hon, Field.valuesIn_append]
    exact List.mem_append_left _ ((getSwitch_feedAll hbefore a).1 hon₁)
  · rw [hon]
    exact ⟨Iff.mp, fun hlast => ⟨hlast, List.mem_of_getLast?⟩⟩

/-- On, off and on again: the switch is on from the first line, and the last value says the same. -/
theorem getSwitch_feedAll_eq_last_iff_on_again :
    let before : List Text := ["Essential: yes".toList]
    let rest : List Text := ["Essential: no", "Essential: yes", "Size: 1"].map String.toList
    let values := Field.essential.valuesIn (.effective .full Config.standard.forced) (before ++ rest)
    ∃ s₁ s, (Session.start {} .full .standard).feedAll before = .ok s₁ ∧
      (Session.start {} .full .standard).feedAll (before ++ rest) = .ok s ∧
      s₁.finish.package.essential = true ∧ s.finish.package.essential = true ∧
      values.getLast? = some "yes".toList := by
  intro before rest values
  obtain ⟨s₁, hbefore⟩ : ∃ s₁, (Session.start {} .full .standard).feedAll before = .ok s₁ :=
    Session.exists_feedAll_eq_ok (by decide +kernel)
  obtain ⟨s, hall⟩ : ∃ s, (Session.start {} .full .standard).feedAll (before ++ rest) = .ok s :=
    Session.exists_feedAll_eq_ok (by decide +kernel)
  obtain ⟨hon₁, -, -⟩ := getSwitch_feedAll_eq_last_iff hbefore .essential
  obtain ⟨-, hstays, hlast⟩ := getSwitch_feedAll_eq_last_iff hall .essential
  have hvalue : values.getLast? = some "yes".toList := by decide
  have hfirst := hon₁.2 (by decide)
  exact ⟨s₁, s, hbefore, hall, hfirst, hstays before rest s₁ rfl hbefore hfirst,
    (hlast.2 fun _ => hvalue).1 (hstays before rest s₁ rfl hbefore hfirst)⟩

/-- A switch is not what the last value of its field says. -/
theorem not_getSwitch_feedAll_eq_last :
    ¬∀ (m : FieldSet) (c : Config) (lines : List Text) (s : Session) (a : Switch),
      (Session.start {} m c).feedAll lines = .ok s →
      (s.finish.package.getSwitch a = true ↔
        (a.field.valuesIn (.effective m c.forced) lines).getLast? = some "yes".toList) := by
  intro hall
  let lines : List Text := ["Essential: yes", "Essential: no"].map String.toList
  obtain ⟨s, h⟩ : ∃ s, (Session.start {} .full .standard).feedAll lines = .ok s :=
    Session.exists_feedAll_eq_ok (by decide +kernel)
  have hon := (getSwitch_feedAll h .essential).2 (by decide)
  have hlast := (hall .full .standard lines s .essential h).1 hon
  exact absurd hlast (by decide)

end ControlFile

import ControlFile.Proofs.Footprint
import Mathlib.Data.List.Nodup
import Mathlib.Data.List.Perm.Lattice

/-!
# The order of the names does not matter

A line is recognised by going through the names with its first character, in the order of the catalogue,
and a name whose field is not selected is passed over with a note in the log. None of this can be seen in
what is found. The names that a line is the header of are one at most, so that whatever is left out of the
scan, put in another order or passed over, the scan ends with that one name or with nothing
(`Header.scan_eq`). Recognition is therefore a scan of the whole catalogue in any order
(`Header.scan_of_perm`), and it is the plain look-up of the text before the first colon
(`Header.recognise_isLookup`).

A line is noted as passed over at most once, and only if it is the header of a field that is not selected
(`Session.filter_isMaskedField_feed`): nothing else that happens to a record makes a note of this kind.
-/

namespace ControlFile

namespace Header

variable {mask : FieldSet} {line : Text} {hs : List Header} {h : Header}

/-! ### The scan of a list of names -/

theorem nodup_catalogue : catalogue.Nodup := by decide

/-- A scan sees only the headers that the line is. -/
theorem scan_filter_heads (mask : FieldSet) (line : Text) (hs : List Header) :
    scan mask line (hs.filter fun h => heads h.name line) = scan mask line hs := by
  induction hs with
  | nil => rfl
  | cons h hs ih =>
    by_cases hh : heads h.name line = true
    · rw [List.filter_cons, if_pos hh]
      simp only [scan, hh, ih]
    · rw [List.filter_cons, if_neg hh, ih]
      simp only [scan, hh, if_false, Bool.false_eq_true]

/-- Of recognised headers that are listed once each, the line is the one that look-up finds, if that one is
among them. -/
theorem filter_heads_eq (hnodup : hs.Nodup) (hsub : ∀ h ∈ hs, h ∈ catalogue)
    (hmem : ∀ h, ofLine? line = some h → h ∈ hs) :
    (hs.filter fun h => heads h.name line) = (ofLine? line).toList := by
  -- For a recognised header, that the line starts with its name and a colon is what look-up asks.
  have hheads : ∀ h ∈ hs, heads h.name line = true ↔ ofLine? line = some h := by
    intro h hh
    rw [ofLine?_eq_some_iff]
    exact (and_iff_right (hsub h hh)).symm
  cases hl : ofLine? line with
  | none =>
    rw [Option.toList_none, List.filter_eq_nil_iff]
    intro h hh
    rw [hheads h hh, hl]
    simp
  | some h =>
    -- All names that the line is the header of are this one, and it is listed once.
    have hone : (hs.filter fun h' => heads h'.name line) = hs.filter (· == h) := by
      apply List.filter_congr
      intro h' hh'
      rw [Bool.eq_iff_iff, hheads h' hh', hl, beq_iff_eq, Option.some.injEq, eq_comm]
    rw [hone, List.filter_beq, List.count_eq_one_of_mem hnodup (hmem h hl)]
    rfl

/-- **What a scan finds.** It does not depend on the order of the names, nor on which other names are there:
it is the header that the line is, which is found or else passed over. -/
theorem scan_eq (mask : FieldSet) (hnodup : hs.Nodup) (hsub : ∀ h ∈ hs, h ∈ catalogue)
    (hmem : ∀ h, ofLine? line = some h → h ∈ hs) :
    scan mask line hs =
      ((ofLine? line).filter (·.field ∈ mask), ((ofLine? line).filter (·.field ∉ mask)).toList) := by
  rw [← scan_filter_heads, filter_heads_eq hnodup hsub hmem]
  cases hl : ofLine? line with
  | none => rfl
  | some h =>
    have hh : heads h.name line = true := (ofLine?_eq_some_iff.1 hl).2
    by_cases hm : h.field ∈ mask
    · simp [scan, Option.filter, hh, hm]
    · simp [scan, Option.filter, hh, hm]

/-! ### The catalogue in any order -/

/-- A scan of all names finds the header that the line is, in whatever order it goes through them. -/
theorem scan_of_perm (mask : FieldSet) (line : Text) (hp : hs.Perm catalogue) :
    scan mask line hs =
      ((ofLine? line).filter (·.field ∈ mask), ((ofLine? line).filter (·.field ∉ mask)).toList) := by
  refine scan_eq mask (hp.nodup_iff.2 nodup_catalogue) (fun h => hp.mem_iff.1) fun h hl => ?_
  exact hp.mem_iff.2 (ofLine?_eq_some_iff.1 hl).1

/-- The names with the first character of the line are enough, in any order. -/
theorem scan_filter_of_perm (mask : FieldSet) (line : Text) (hp : hs.Perm catalogue) :
    scan mask line (hs.filter (·.name.head? = line.head?)) = scan mask line hs := by
  have hnodup : hs.Nodup := hp.nodup_iff.2 nodup_catalogue
  rw [scan_of_perm mask line hp]
  refine scan_eq mask (hnodup.filter _) (fun h hh => hp.mem_iff.1 (List.mem_of_mem_filter hh)) ?_
  intro h hl
  obtain ⟨hm, hh⟩ := ofLine?_eq_some_iff.1 hl
  -- A line that is a header begins with the first character of its name.
  obtain ⟨c, hc, -⟩ := head?_name h hm
  obtain ⟨rest, rfl⟩ := heads_iff.1 hh
  refine List.mem_filter.2 ⟨hp.mem_iff.2 hm, ?_⟩
  rw [List.head?_append, hc]
  simp

/-- Recognition is a scan of the whole catalogue, though it tries fewer names. -/
theorem recognise_eq_scan (mask : FieldSet) (line : Text) :
    recognise mask line = scan mask line catalogue := by
  rw [← scan_filter_of_perm mask line (.refl catalogue), recognise]
  cases line with
  | nil => rfl
  | cons c line => rfl

end Header

/-! ### What is noted in the log -/

/-- The note that a field is not selected and its line is passed over. -/
def Event.isMaskedField : Event → Bool
  | .maskedField .. => true
  | _ => false

/-- What is noted of a value is not the note that its field is masked. -/
theorem Event.not_isMaskedField {e : Event} (h : e.isRemark = true ∨ e.isRefusal = true) :
    ¬e.isMaskedField = true := by
  cases e <;> simp_all [isRemark, isRefusal, isMaskedField]

/-- What tells an outcome has no such note in it. -/
theorem Outcome.Told.filter_isMaskedField {o : Outcome} {events : List Event} (h : o.Told events) :
    events.filter (·.isMaskedField) = [] := by
  rw [List.filter_eq_nil_iff]
  intro e he
  cases h with
  | malformed h =>
    rw [List.mem_singleton.1 he]
    exact Event.not_isMaskedField (.inr h)
  | other ho h => exact Event.not_isMaskedField (.inl (h e he))

namespace Session

variable {s : Session} {line : Text}

theorem filter_isMaskedField_map (name : Option Text) (skipped : List Header) :
    (skipped.map fun h => Event.maskedField h.name name).filter (·.isMaskedField) =
      skipped.map (.maskedField ·.name name) := by
  rw [List.filter_eq_self]
  intro e he
  obtain ⟨h, -, rfl⟩ := List.mem_map.1 he
  rfl

/-- **What is noted as passed over.** A line makes one such note if it is the header of a field that is not
selected, and none otherwise. -/
theorem filter_isMaskedField_feed (s : Session) (line : Text) :
    (s.feed line).events.filter (·.isMaskedField) =
      if s.finished then []
      else ((Header.ofLine? line).filter (·.field ∉ s.mask)).toList.map
        (.maskedField ·.name s.package.name) := by
  unfold feed
  split
  · rfl
  split
  · -- A line of the open block starts with a space, and so it is no header.
    rename_i hbody
    rw [(told_feedBody s line).filter_isMaskedField, Header.ofLine?_of_space (head?_of_isBody hbody)]
    rfl
  · obtain ⟨events, htold, hevents⟩ := exists_told_feedOutside s line
    rw [hevents, List.filter_append, htold.filter_isMaskedField, List.append_nil,
      filter_isMaskedField_map, Header.recognise_eq_scan, Header.scan_of_perm s.mask line (.refl _)]

end Session

/-- **Recognition is look-up, in whatever order the names are tried.** A line is recognised as a header if
the text before its first colon is the name of one in the catalogue whose field is selected, and otherwise
it is recognised as none. The line is at most one of the headers in the catalogue. So the names may be tried
in any order, all of them or only those with the first character of the line, and the same header is found
and the same are passed over; and of those passed over, a session that reads the line notes one at most. -/
theorem Header.recognise_isLookup (mask : FieldSet) (line : Text) :
    (∀ h, (recognise mask line).1 = some h ↔
      h ∈ catalogue ∧ (∃ rest, line = h.name ++ ':' :: rest ∧ ':' ∉ h.name) ∧ h.field ∈ mask) ∧
    (catalogue.filter fun h => heads h.name line).length ≤ 1 ∧
    (∀ hs, hs.Perm catalogue →
      scan mask line hs = recognise mask line ∧
      scan mask line (hs.filter (·.name.head? = line.head?)) = recognise mask line) ∧
    ∀ s : Session, ((s.feed line).events.filter (·.isMaskedField)).length ≤ 1 := by
  refine ⟨fun h => ?_, ?_, fun hs hp => ?_, fun s => ?_⟩
  · rw [recognise_fst, Option.filter_eq_some_iff, ofLine?_eq_some_iff, heads_iff, decide_eq_true_iff,
      and_assoc]
    refine and_congr_right fun hm => ?_
    simp only [colon_not_mem_name h hm, not_false_eq_true, and_true]
  · rw [filter_heads_eq nodup_catalogue (fun _ => id) fun h hl => (ofLine?_eq_some_iff.1 hl).1]
    cases ofLine? line <;> simp
  · have hscan : scan mask line hs = recognise mask line := by
      -- Neither order is seen in the result, so the two agree.
      rw [recognise_eq_scan, scan_of_perm mask line hp, scan_of_perm mask line (.refl catalogue)]
    exact ⟨hscan, (scan_filter_of_perm mask line hp).trans hscan⟩
  · rw [Session.filter_isMaskedField_feed]
    split
    · simp
    · rw [List.length_map]
      cases (ofLine? line).filter (·.field ∉ s.mask) <;> simp

/-- The older name of a field, with another name behind it, tried after all the names that follow it in the
catalogue. -/
theorem Header.recognise_isLookup_older_name :
    let line : Text := "MD5Sum:Size:1".toList
    let older : Header := ⟨"MD5Sum".toList, .md5sum⟩
    catalogue.reverse.Perm catalogue ∧ (recognise (.single .md5sum) line).1 = some older ∧
      scan (.single .md5sum) line catalogue.reverse = recognise (.single .md5sum) line ∧
      (recognise (.single .size) line).1 = none := by
  intro line older
  have hperm : catalogue.reverse.Perm catalogue := List.reverse_perm catalogue
  obtain ⟨hlookup, -, horder, -⟩ := recognise_isLookup (.single .md5sum) line
  obtain ⟨hsize, -⟩ := recognise_isLookup (.single .size) line
  refine ⟨hperm, (hlookup older).2 ⟨by decide, ⟨"Size:1".toList, rfl, by decide⟩, by decide⟩,
    (horder _ hperm).1, ?_⟩
  -- A name that the line would be recognised by is that of the size, which the line does not start with.
  rw [Option.eq_none_iff_forall_ne_some]
  intro h hh
  obtain ⟨hm, ⟨rest, hline, -⟩, hfield⟩ := (hsize h).1 hh
  have hname : h.name = "Size".toList := by
    have hnames : ∀ h ∈ catalogue, h.field = .size → h.name = "Size".toList := by decide
    exact hnames h hm (FieldSet.mem_single.1 hfield)
  rw [hname] at hline
  have hhead : some 'M' = some 'S' := congrArg List.head? hline
  exact absurd hhead (by decide)

end ControlFile

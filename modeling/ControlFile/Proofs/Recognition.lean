import ControlFile.Header

/-!
# Recognising a header is looking its name up

A line is recognised by a scan: of the names with the line's first character, each is compared with
the front of the line, and the fields that are not selected are passed over. A plain look-up takes the
text before the first colon and asks for the header of exactly this name.

Both agree (`Header.recognise_fst`). The reason is that no recognised name has a colon in it and no
two are equal, so that a line is the header of one name at most (`Header.ofLine?_eq_some_iff`), and
neither the order of the names nor the fields passed over can change what is found. What a session does
with a line can therefore be said in terms of `Header.ofLine?`, which does not mention the selection.
-/

namespace ControlFile

/-- What stands around the first occurrence of a character. -/
theorem Text.eq_append_of_cut? {c : Char} {t a b : Text} (h : Text.cut? c t = some (a, b)) :
    t = a ++ c :: b := by
  unfold Text.cut? at h
  split at h
  · cases h
  · rename_i x rest hdrop
    obtain ⟨rfl, rfl⟩ : List.takeWhile (· != c) t = a ∧ rest = b := by simpa using h
    have hx : x = c := by
      have := List.head?_dropWhile_not (· != c) t
      rw [hdrop] at this
      simpa using this
    subst hx
    rw [← hdrop]
    exact List.takeWhile_append_dropWhile.symm

namespace Header

/-! ### The names -/

/-- Every field has a header of its name. -/
theorem mem_catalogue (f : Field) : ⟨f.name, f⟩ ∈ catalogue := by
  cases f <;> decide

theorem colon_not_mem_name : ∀ h ∈ catalogue, ':' ∉ h.name := by decide

theorem named?_name : ∀ h ∈ catalogue, named? h.name = some h := by decide

/-- No name begins with a blank. -/
theorem head?_name (h : Header) (hm : h ∈ catalogue) :
    ∃ c, h.name.head? = some c ∧ isBlank c = false := by
  have key : ∀ h ∈ catalogue, h.name.head?.map isBlank = some false := by decide
  exact Option.map_eq_some_iff.1 (key h hm)

/-- A line is the header with a name when it goes on with a colon after the name. -/
theorem heads_iff {name line : Text} :
    heads name line = true ↔ ∃ rest, line = name ++ ':' :: rest := by
  rw [heads, List.isPrefixOf_iff_prefix]
  constructor
  · rintro ⟨rest, rfl⟩
    exact ⟨rest, by simp⟩
  · rintro ⟨rest, rfl⟩
    exact ⟨rest, by simp⟩

/-- **A line is one header at most.** The look-up finds the recognised name that the line starts with,
a colon directly after it. -/
theorem ofLine?_eq_some_iff {line : Text} {h : Header} :
    ofLine? line = some h ↔ h ∈ catalogue ∧ heads h.name line = true := by
  rw [heads_iff]
  constructor
  · intro hl
    obtain ⟨⟨name, rest⟩, hcut, hname⟩ := Option.bind_eq_some_iff.1 hl
    have heq : h.name = name := by simpa using List.find?_some hname
    exact ⟨List.mem_of_find?_eq_some hname, rest, heq ▸ Text.eq_append_of_cut? hcut⟩
  · rintro ⟨hm, rest, rfl⟩
    -- The first colon of the line is the one after the name.
    rw [ofLine?, Text.cut?_append_cons rest (colon_not_mem_name h hm)]
    exact named?_name h hm

/-! ### The scan -/

/-- The scan gives the first header that the line is one of and whose field is selected. -/
theorem scan_fst (mask : FieldSet) (line : Text) (hs : List Header) :
    (scan mask line hs).1 = hs.find? fun h => heads h.name line && decide (h.field ∈ mask) := by
  induction hs with
  | nil => rfl
  | cons h hs ih =>
    -- A header whose field is not selected is passed over like one that the line is not.
    rw [scan, List.find?_cons]
    cases hh : heads h.name line with
    | false => simpa [hh] using ih
    | true =>
      by_cases hm : h.field ∈ mask
      · simp [hm]
      · simpa [hm] using ih

/-- A line that is a header has the first character of its name. -/
theorem mem_candidates {line : Text} {h : Header} (hm : h ∈ catalogue)
    (hl : heads h.name line = true) : h ∈ candidates line := by
  obtain ⟨c, hc, -⟩ := head?_name h hm
  obtain ⟨rest, rfl⟩ := heads_iff.1 hl
  obtain ⟨name, hname⟩ := List.head?_eq_some_iff.1 hc
  rw [hname, List.cons_append, candidates]
  exact List.mem_filter.2 ⟨hm, by simp [hc]⟩

/-- **Recognition is look-up.** The scan finds the header that the line is, if its field is selected,
and nothing otherwise. -/
theorem recognise_fst (mask : FieldSet) (line : Text) :
    (recognise mask line).1 = (ofLine? line).filter (·.field ∈ mask) := by
  rw [recognise, scan_fst]
  -- Both sides find the only header that the line can be, so members are all there is to compare.
  have sound : ∀ h ∈ candidates line, heads h.name line = true → ofLine? line = some h := by
    intro h hc hl
    refine ofLine?_eq_some_iff.2 ⟨?_, hl⟩
    cases line with
    | nil => cases hc
    | cons c line => exact (List.mem_filter.1 hc).1
  ext h
  rw [Option.filter_eq_some_iff]
  constructor
  · intro hf
    have hp := List.find?_some hf
    simp only [Bool.and_eq_true] at hp
    exact ⟨sound h (List.mem_of_find?_eq_some hf) hp.1, hp.2⟩
  · rintro ⟨hl, hsel⟩
    obtain ⟨hm, hheads⟩ := ofLine?_eq_some_iff.1 hl
    -- The header is among the candidates and passes the test, so the search finds something.
    have hp : (heads h.name line && decide (h.field ∈ mask)) = true := by
      rw [hheads, hsel]
      rfl
    cases hf : (candidates line).find? fun h => heads h.name line && decide (h.field ∈ mask) with
    | none => exact absurd hp (List.find?_eq_none.1 hf h (mem_candidates hm hheads))
    | some h' =>
      -- An earlier candidate that the line is as well would be the same header.
      have hp' := List.find?_some hf
      simp only [Bool.and_eq_true] at hp'
      have heq := sound h' (List.mem_of_find?_eq_some hf) hp'.1
      rw [hl] at heq
      exact heq.symm

/-! ### Lines that are no header -/

/-- A header starts with a character that is not blank. -/
theorem not_isBlank_head {line : Text} {h : Header} (hl : ofLine? line = some h) :
    ∃ c rest, line = c :: rest ∧ isBlank c = false := by
  obtain ⟨hm, hheads⟩ := ofLine?_eq_some_iff.1 hl
  obtain ⟨c, hc, hblank⟩ := head?_name h hm
  obtain ⟨rest, rfl⟩ := heads_iff.1 hheads
  obtain ⟨name, hname⟩ := List.head?_eq_some_iff.1 hc
  exact ⟨c, name ++ ':' :: rest, by rw [hname]; rfl, hblank⟩

/-- A line that starts with a space is no header. -/
theorem ofLine?_of_space {line : Text} (h : line.head? = some ' ') : ofLine? line = none := by
  cases hl : ofLine? line with
  | none => rfl
  | some hd =>
    obtain ⟨c, rest, rfl, hc⟩ := not_isBlank_head hl
    simp only [List.head?_cons, Option.some.injEq] at h
    simp [h] at hc

theorem ofLine?_of_allBlank {line : Text} (h : line.allBlank = true) : ofLine? line = none := by
  cases hl : ofLine? line with
  | none => rfl
  | some hd =>
    obtain ⟨c, rest, rfl, hc⟩ := not_isBlank_head hl
    simp [Text.allBlank, hc] at h

end Header

end ControlFile

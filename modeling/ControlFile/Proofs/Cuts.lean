import ControlFile.Proofs.Selection

/-!
# Where records end

`Session.cuts` tells for each line of a run whether a record ends with it. For a run that is not
interrupted this is a property of the lines and of the selected fields (`Session.cuts_eq`): a blank line
ends the record, unless it stands in a block of a selected field.

So the selection does take part in how a text is cut into records, and two selections can give records of
different names (`not_names_eq`). They cut a text alike exactly when no line of blanks stands in a block
whose field only one of them selects, and then the names agree (`recordCuts_eq_iff_and_names_eq`).
-/

namespace ControlFile

/-! ### The lines that end a record -/

/-- For each line, whether a record ends with it, where these fields are selected and the lines may go on
with this block. -/
def Text.cuts (fields : FieldSet) : Option Field → List Text → List Bool
  | _, [] => []
  | block, line :: lines =>
    (line.allBlank && !(decide (line.head? = some ' ') && block.any (· ∈ fields))) ::
      cuts fields (Text.blockAfter block line) lines

/-- For each of the lines ahead, whether the session or a fresh one after it ends a record with it. The
reading ends with a line that is refused. -/
def Session.cuts : (s fresh : Session) → List Text → List Bool
  | _, _, [] => []
  | s, fresh, line :: lines =>
    match (s.feed line).outcome with
    | .ended => true :: cuts fresh fresh lines
    | .refused _ => []
    | .goesOn | .malformed => false :: cuts (s.feed line).session fresh lines

/-- For each line of a text, whether a record ends with it. -/
def recordCuts (requested : FieldSet) (config : Config) (t : Text) : List Bool :=
  (Session.start {} requested config).cuts (.start {} requested config) t.rows

namespace Session

variable {s s' fresh : Session} {line : Text} {lines : List Text} {block : Option Field}
  {ps : List Package} {o : Outcome}

theorem cuts_of_ended (h : s.Step line s' .ended) :
    s.cuts fresh (line :: lines) = true :: fresh.cuts fresh lines := by
  rw [cuts, h.feed_eq.2]

theorem cuts_of_goesOn (h : s.Step line s' o) (ho : o = .goesOn ∨ o = .malformed) :
    s.cuts fresh (line :: lines) = false :: s'.cuts fresh lines := by
  obtain ⟨hs, ho'⟩ := h.feed_eq
  rcases ho with rfl | rfl <;> rw [cuts, ho', hs]

/-- **Where a run ends its records** is seen from the lines and the selected fields alone. -/
theorem cuts_eq (hfresh : fresh.phase = .idle) (hmask : fresh.mask = s.mask) (hs : s.Follows block)
    (h : s.harvest fresh lines none = { packages := ps }) :
    s.cuts fresh lines = Text.cuts s.mask block lines := by
  induction lines generalizing s block ps with
  | nil => rfl
  | cons line lines ih =>
    obtain ⟨s', o, hstep⟩ := exists_step s line
    have hends := hstep.ended_iff hs
    -- The rule that ends a record is the only one with this guard.
    have hcut : (line.allBlank && !(decide (line.head? = some ' ') && block.any (· ∈ s.mask))) =
        decide (o = .ended) := by
      rw [Bool.eq_iff_iff, decide_eq_true_iff, hends, Bool.and_eq_true, Bool.not_eq_true',
        ← Bool.not_eq_true, Bool.and_eq_true, decide_eq_true_iff, Option.any_eq_true]
      simp only [decide_eq_true_eq]
    rw [Text.cuts, hcut]
    cases o with
    | ended =>
      -- The lines behind are read to their end too, whether the record was a package or not.
      rw [harvest_of_ended hstep, Package.harvest_eq_iff] at h
      obtain ⟨qs, hqs⟩ : ∃ qs, fresh.harvest fresh lines none = { packages := qs } := by
        rcases h with ⟨-, h⟩ | ⟨-, -, qs, -, -, h, -⟩
        · exact ⟨ps, h⟩
        · exact ⟨qs, h⟩
      have hfollows : fresh.Follows (Text.blockAfter block line) :=
        follows_of_idle hfresh fun f hf => hmask ▸ hstep.follows_ended hs hf
      rw [cuts_of_ended hstep, ih rfl hfollows hqs, hmask]
      rfl
    | refused cause =>
      rw [harvest_of_refused hstep] at h
      cases h
    | goesOn =>
      rw [harvest_of_goesOn hstep (.inl rfl)] at h
      rw [cuts_of_goesOn hstep (.inl rfl), ih (by rw [hmask, hstep.mask_eq])
        (hstep.follows hs (.inl rfl)) h, hstep.mask_eq]
      rfl
    | malformed =>
      rw [harvest_of_goesOn hstep (.inr rfl)] at h
      rw [cuts_of_goesOn hstep (.inr rfl), ih (by rw [hmask, hstep.mask_eq])
        (hstep.follows hs (.inr rfl)) h, hstep.mask_eq]
      rfl

end Session

/-! ### Two selections -/

namespace Text

variable {e e' : FieldSet} {block : Option Field} {lines : List Text}

/-- With fewer fields there are fewer blocks in which a line of blanks matters. -/
theorem hasBlankInBlock_mono (hsub : ∀ f ∈ e, f ∈ e')
    (h : hasBlankInBlock e' block lines = false) : hasBlankInBlock e block lines = false := by
  induction lines generalizing block with
  | nil => rfl
  | cons line lines ih =>
    rw [hasBlankInBlock_cons_eq_false] at h ⊢
    exact ⟨fun f hf hmem => h.1 f hf (hsub f hmem), ih h.2⟩

/-- Two selections end records with the same lines exactly when no line of blanks stands in a block that
only one of them reads. -/
theorem cuts_eq_iff :
    cuts e block lines = cuts e' block lines ↔
      hasBlankInBlock (e \ e' ∪ e' \ e) block lines = false := by
  induction lines generalizing block with
  | nil => simp [cuts, hasBlankInBlock]
  | cons line lines ih =>
    rw [cuts, cuts, List.cons.injEq, ih, hasBlankInBlock_cons_eq_false]
    refine and_congr_left' ?_
    -- The rest is about one line and one field, and four questions decide it.
    cases block with
    | none => simp
    | some f =>
      by_cases hl : line.allBlank = true <;> by_cases hs : line.head? = some ' ' <;>
        by_cases he : f ∈ e <;> by_cases he' : f ∈ e' <;> simp [hl, hs, he, he']

end Text

section TwoSelections

variable {m n : FieldSet} {c : Config} {t : Text} {ps qs : List Package}

/-- For a text that is read to its end, the ends of its records are seen from its lines. -/
theorem recordCuts_eq (h : (readText m c t).packages? = .ok ps) :
    recordCuts m c t = Text.cuts (.effective m c.forced) none t.rows :=
  Session.cuts_eq rfl rfl (Session.follows_of_idle rfl (by simp)) (readText_eq_ok_iff.1 h).2.2

/-- What a selection with fewer fields reads has the same names. -/
theorem names_of_subset (hsub : ∀ f ∈ n, f ∈ m)
    (hpackage : .package ∈ FieldSet.effective n c.forced)
    (hplain : Text.hasBlankInBlock (.effective m c.forced \ .effective n c.forced) none t.rows =
      false) (h : (readText m c t).packages? = .ok ps) :
    ∃ qs, (readText n c t).packages? = .ok qs ∧ qs.map (·.name) = ps.map (·.name) := by
  have hsub' : ∀ f ∈ FieldSet.effective n c.forced, f ∈ FieldSet.effective m c.forced := by
    intro f hf
    rw [FieldSet.mem_effective] at hf ⊢
    exact ⟨hsub f hf.1, hf.2⟩
  refine ⟨_, readText_restrict_of_subset hsub' hpackage rfl rfl hplain h, ?_⟩
  rw [List.map_map]
  exact List.map_congr_left fun p _ => p.restrict_name _ hpackage

/-- **Two selections cut a text alike** exactly when no line of blanks stands in a block whose field one
of them selects and the other does not. Where it is so, they give packages of the same names. -/
theorem recordCuts_eq_iff_and_names_eq (hm : .package ∈ FieldSet.effective m c.forced)
    (hn : .package ∈ FieldSet.effective n c.forced) (hps : (readText m c t).packages? = .ok ps)
    (hqs : (readText n c t).packages? = .ok qs) :
    let fields := FieldSet.effective m c.forced \ .effective n c.forced ∪
      FieldSet.effective n c.forced \ .effective m c.forced
    (recordCuts m c t = recordCuts n c t ↔ Text.hasBlankInBlock fields none t.rows = false) ∧
      (Text.hasBlankInBlock fields none t.rows = false →
        ps.map (·.name) = qs.map (·.name)) := by
  refine ⟨by rw [recordCuts_eq hps, recordCuts_eq hqs]; exact Text.cuts_eq_iff, fun hplain => ?_⟩
  -- Both are compared with the fields that both select.
  have hpackage : .package ∈ FieldSet.effective (m ∩ n) c.forced := by
    simp only [FieldSet.mem_effective, FieldSet.mem_inter] at hm hn ⊢
    exact ⟨⟨hm.1, hn.1⟩, hm.2⟩
  obtain ⟨ps', hps', hnames⟩ := names_of_subset (n := m ∩ n) (by simp +contextual) hpackage
    (Text.hasBlankInBlock_mono (by simp +contextual) hplain) hps
  obtain ⟨qs', hqs', hnames'⟩ := names_of_subset (n := m ∩ n) (by simp +contextual) hpackage
    (Text.hasBlankInBlock_mono (by simp +contextual) hplain) hqs
  -- What is read of those fields is the same from both sides, and has the names of both.
  obtain rfl : ps' = qs' := Except.ok.inj (hps'.symm.trans hqs')
  exact hnames.symm.trans hnames'

end TwoSelections

/-- A line of a space belongs to the description for both selections, and the files of the second package
are in no record of the first selection. -/
theorem recordCuts_eq_and_names_eq_conffiles :
    let m : FieldSet := .single .package ∪ .single .description
    let n : FieldSet := m ∪ .single .conffiles
    let t : Text := "Package: a\nDescription: d\n \n x\n\nPackage: b\nConffiles:\n /x y".toList
    let a : Package := { name := some ['a'], description := some "d\n \n x".toList }
    let b : Package := { name := some ['b'] }
    let b' : Package := { b with conffiles := [⟨"/x".toList, ['y']⟩] }
    (readText m {} t).packages? = .ok [a, b] ∧ (readText n {} t).packages? = .ok [a, b'] ∧
      recordCuts m {} t = recordCuts n {} t ∧ [a, b].map (·.name) = [a, b'].map (·.name) := by
  intro m n t a b b'
  have hm : (readText m {} t).packages? = .ok [a, b] :=
    readText_eq_ok_iff.2 ⟨by decide, by decide +kernel, by decide +kernel⟩
  have hn : (readText n {} t).packages? = .ok [a, b'] :=
    readText_eq_ok_iff.2 ⟨by decide, by decide +kernel, by decide +kernel⟩
  obtain ⟨hcuts, hnames⟩ := recordCuts_eq_iff_and_names_eq (by decide) (by decide) hm hn
  exact ⟨hm, hn, hcuts.2 (by decide +kernel), hnames (by decide +kernel)⟩

/-- **Names depend on the selection.** A line of a space after a description is text where descriptions
are read, and ends the record where they are not. -/
theorem not_names_eq :
    ¬∀ (m n : FieldSet) (c : Config) (t : Text) (ps qs : List Package),
      .package ∈ FieldSet.effective m c.forced → .package ∈ FieldSet.effective n c.forced →
      (readText m c t).packages? = .ok ps → (readText n c t).packages? = .ok qs →
      ps.map (·.name) = qs.map (·.name) := by
  intro h
  let t : Text := "Package: a\nDescription: x\n \nPackage: b\n".toList
  have hfull : (readText .full {} t).packages? =
      .ok [{ name := some ['b'], description := some "x\n ".toList }] :=
    readText_eq_ok_iff.2 ⟨by decide, by decide +kernel, by decide +kernel⟩
  have hname : (readText (.single .package) {} t).packages? =
      .ok [{ name := some ['a'] }, { name := some ['b'] }] :=
    readText_eq_ok_iff.2 ⟨by decide, by decide +kernel, by decide +kernel⟩
  have := h .full (.single .package) {} t _ _ (by decide) (by decide) hfull hname
  simp at this

end ControlFile

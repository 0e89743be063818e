import ControlFile.Proofs.Harvest
import ControlFile.Proofs.Restriction

/-!
# Selecting fields is leaving fields out

A reader that selects fields could as well read everything and put the attributes of all other fields
back to how they start. This holds for whole texts (`readText_restrict`), as long as no line of blanks
stands in a block whose field is left out: the reader of everything takes it for text of the block, and
the reader of a selection takes it for the end of the record.

A run and its restriction are compared line by line (`Session.harvest_restrict`). The session follows the
blocks of the lines, so that the condition on the lines ahead is all that has to be known of them.
-/

namespace ControlFile

variable {p : Package} {ps : List Package} {rest : Harvest}

/-- A version that can be written can be so where other fields are left out, or is left out itself. -/
theorem Package.fullVersionText?_restrict {version : Option Text} (e : FieldSet)
    (h : p.fullVersionText? = .ok version) :
    ∃ version', (p.restrict e).fullVersionText? = .ok version' := by
  -- The parts of a version belong to one field, so they are left out together.
  by_cases he : Field.version ∈ e
  · refine ⟨version, ?_⟩
    rw [← h]
    simp [fullVersionText?, fullVersion, restrict, he]
  · exact ⟨none, by simp [fullVersionText?, fullVersion, restrict, he]⟩

/-- A package of the run is a package of the restricted run. -/
theorem Package.harvest_restrict {e : FieldSet} (he : .package ∈ e)
    (h : p.harvest rest = { packages := ps }) {rest' : Harvest}
    (hrest : ∀ qs, rest = { packages := qs } → rest' = { packages := qs.map (·.restrict e) }) :
    (p.restrict e).harvest rest' = { packages := ps.map (·.restrict e) } := by
  rw [Package.harvest_eq_iff] at h ⊢
  rw [restrict_name p e he]
  rcases h with ⟨hname, hr⟩ | ⟨name, version, qs, hname, hv, hr, rfl⟩
  · exact .inl ⟨hname, hrest ps hr⟩
  · obtain ⟨version', hv'⟩ := Package.fullVersionText?_restrict e hv
    exact .inr ⟨name, version', _, hname, hv', hrest qs hr, rfl⟩

namespace Session

variable {s fresh : Session} {e : FieldSet} {block : Option Field} {lines : List Text}

/-- **A restricted run gives the restricted packages.** The lines ahead have no blank line in a block
that the session reads and the restricted session does not. -/
theorem harvest_restrict (hsub : ∀ f ∈ e, f ∈ s.mask) (he : .package ∈ e)
    (hfresh : fresh.phase = .idle) (hmask : fresh.mask = s.mask) (hs : s.Follows block)
    (hplain : Text.hasBlankInBlock (s.mask \ e) block lines = false)
    (h : s.harvest fresh lines none = { packages := ps }) :
    (s.restrict e).harvest (fresh.restrict e) lines none =
      { packages := ps.map (·.restrict e) } := by
  induction lines generalizing s block ps with
  | nil =>
    rw [harvest] at h ⊢
    rw [finish_restrict]
    refine Package.harvest_restrict he h fun qs hqs => ?_
    obtain ⟨rfl, -⟩ := Harvest.mk.inj hqs
    rfl
  | cons line lines ih =>
    obtain ⟨hline, hlines⟩ := Text.hasBlankInBlock_cons_eq_false.1 hplain
    obtain ⟨s', o, hstep⟩ := exists_step s line
    have hread : ∀ cause, o ≠ .refused cause := by
      rintro cause rfl
      rw [harvest_of_refused hstep] at h
      cases h
    -- The open block of the session is that of the lines, of which the condition speaks.
    have hblock : ∀ f, s.phase.block? = some f → f ∉ e → line.head? = some ' ' →
        line.allBlank = false := by
      intro f hf hfe
      rw [hs.2, Option.filter_eq_some_iff] at hf
      exact hline f hf.1 (FieldSet.mem_sdiff.2 ⟨by simpa using hf.2, hfe⟩)
    obtain ⟨o', hstep', ⟨rfl, rfl⟩ | ⟨ho, ho'⟩⟩ := hstep.restrict hsub hblock hread
    · -- The record ends for both, and fresh sessions read on.
      rw [harvest_of_ended hstep] at h
      rw [harvest_of_ended hstep', finish_restrict]
      refine Package.harvest_restrict he h fun qs hqs => ?_
      refine ih (by rwa [hmask]) rfl (follows_of_idle hfresh fun f hf => ?_) (by rwa [hmask]) hqs
      rw [hmask]
      exact hstep.follows_ended hs hf
    · -- Both read on, with the selections that they had.
      rw [harvest_of_goesOn hstep ho] at h
      rw [harvest_of_goesOn hstep' ho']
      exact ih (by rwa [hstep.mask_eq]) (by rw [hmask, hstep.mask_eq]) (hstep.follows hs ho)
        (by rwa [hstep.mask_eq]) h

end Session

/-! ### Texts -/

/-- A session of the selected fields is the restriction of one that selects more. -/
theorem Session.start_restrict {m m' : FieldSet} {c c' : Config}
    (harch : c.architectures = c'.architectures) :
    (Session.start {} m c).restrict (.effective m' c'.forced) = .start {} m' c' := by
  simp [Session.start, Session.restrict, Phase.restrict, harch]

/-- **Selecting fewer fields** gives the same packages without the attributes of the fields that are left
out, if none of these has a blank line in its block. -/
theorem readText_restrict_of_subset {m m' : FieldSet} {c c' : Config} {t : Text}
    (hsub : ∀ f ∈ FieldSet.effective m' c'.forced, f ∈ FieldSet.effective m c.forced)
    (hpackage : .package ∈ FieldSet.effective m' c'.forced)
    (harch : c.architectures = c'.architectures) (hlimit : c.lineLimit = c'.lineLimit)
    (hplain : Text.hasBlankInBlock
      (.effective m c.forced \ .effective m' c'.forced) none t.rows = false)
    (h : (readText m c t).packages? = .ok ps) :
    (readText m' c' t).packages? = .ok (ps.map (·.restrict (.effective m' c'.forced))) := by
  rw [readText_eq_ok_iff] at h ⊢
  obtain ⟨hc, hall, h⟩ := h
  refine ⟨hlimit ▸ hc, hlimit ▸ hall, ?_⟩
  rw [← Session.start_restrict harch]
  exact Session.harvest_restrict hsub hpackage rfl rfl (Session.follows_of_idle rfl (by simp))
    hplain h

/-- **Selecting fields is reading everything and leaving the others out.** The packages of a selection are
those of a reader of everything, in which every attribute of a field that was not asked for, or was forced off,
is put back to how it starts. -/
theorem readText_restrict {m : FieldSet} {c : Config} {t : Text}
    (hpackage : .package ∈ m \ c.forced)
    (hplain : Text.hasBlankInBlock (.full \ (m \ c.forced)) none t.rows = false)
    (h : (readText .full { c with forced := .empty } t).packages? = .ok ps) :
    (readText m c t).packages? = .ok (ps.map (·.restrict (m \ c.forced))) := by
  -- What a session selects is what was asked for without what is forced off.
  have hselected : FieldSet.effective m c.forced = m \ c.forced :=
    FieldSet.ext_mem fun f => by rw [FieldSet.mem_effective, FieldSet.mem_sdiff]
  -- The selection is compared with one of all fields, which has none of them forced off.
  have hfull : FieldSet.effective .full .empty = .full := FieldSet.ext_mem (by simp)
  rw [← hselected] at hpackage hplain ⊢
  refine readText_restrict_of_subset (m := .full) (c := { c with forced := .empty })
    (fun f _ => ?_) hpackage rfl rfl ?_ h
  · rw [hfull]
    exact FieldSet.mem_full f
  · rw [hfull]
    exact hplain

/-- The section is not asked for. The description is, but it is forced off, so that its lines are passed over,
also the one with a header in it. The list of files goes on after a line of a space and a tab, since it is
selected. -/
theorem readText_restrict_description :
    let m : FieldSet := .single .package ∪ .single .size ∪ .single .conffiles ∪ .single .description
    let c : Config := { forced := .single .description ∪ .single .depends }
    let t : Text :=
      ("Package: a\nSection: s\nDescription: d\n Size: 1\nSize: 2\n\n" ++
        "Package: b\nConffiles:\n \t\n /x y").toList
    let a : Package := { name := some ['a'], size := some 2 }
    let b : Package := { name := some ['b'], conffiles := [⟨"/x".toList, ['y']⟩] }
    .description ∈ m ∧ .description ∉ m \ c.forced ∧
      (readText .full { c with forced := .empty } t).packages? =
        .ok [{ a with sectionName := some ['s'], description := some "d\n Size: 1".toList }, b] ∧
      (readText m c t).packages? = .ok [a, b] := by
  intro m c t a b
  have h : (readText .full { c with forced := .empty } t).packages? =
      .ok [{ a with sectionName := some ['s'], description := some "d\n Size: 1".toList }, b] :=
    readText_eq_ok_iff.2 ⟨by decide, by decide +kernel, by decide +kernel⟩
  exact ⟨by decide, by decide, h, readText_restrict (m := m) (c := c) (by decide) (by decide +kernel) h⟩

end ControlFile

import ControlFile.Proofs.Step
import Mathlib.Data.List.Induction

/-!
# Blocks of lines

A block is the header line of a description or of a list of configuration files, with the lines after it
that start with a space. Which lines these are can be read off a text, without a session and without a
selection: `Text.blockAfter` is the field of the block that the next line may go on with.

A session is in this block if the field is selected, and in none otherwise. This is kept by every rule
(`Session.Step.follows`), so that along a whole run the place of a session is known from the lines
alone, and with it the lines that end a record (`Session.Step.ended_iff`).

Lines of blanks in a block are what makes the end of a record depend on the selection.
`Text.hasBlankInBlock` tells whether a text has one, in a block of one of the given fields
(`Text.hasBlankInBlock_iff`).
-/

namespace ControlFile

/-- Whether lines with the header of this field go on with a block. -/
def Field.isBlock (f : Field) : Bool := f = .description || f = .conffiles

/-- A field of one line has no block. -/
theorem Field.isBlock_of_single {f : Field} {slot : Slot} (h : f.kind = .single slot) :
    f.isBlock = false := by
  cases f <;> first | rfl | cases h

/-- The description is the only field that is read as one. -/
theorem Field.eq_description {f : Field} (h : f.kind = .description) : f = .description := by
  cases f <;> first | rfl | cases h

theorem Field.eq_conffiles {f : Field} (h : f.kind = .conffiles) : f = .conffiles := by
  cases f <;> first | rfl | cases h

namespace Text

/-- The field whose block a line opens. -/
def opens? (line : Text) : Option Field :=
  ((Header.ofLine? line).map (·.field)).filter Field.isBlock

/-- The field of the block that the line after this one may go on with. -/
def blockAfter (block : Option Field) (line : Text) : Option Field :=
  if line.head? = some ' ' then block else line.opens?

/-- Whether a line of blanks stands in a block of one of these fields, where the lines may go on with
this block. -/
def hasBlankInBlock (fields : FieldSet) : Option Field → List Text → Bool
  | _, [] => false
  | block, line :: lines =>
    line.head? = some ' ' && line.allBlank && block.any (· ∈ fields) ||
      hasBlankInBlock fields (blockAfter block line) lines

/-- A line that starts with a space opens no block, since it is no header. -/
theorem opens?_of_space {line : Text} (h : line.head? = some ' ') : line.opens? = none := by
  rw [opens?, Header.ofLine?_of_space h]
  rfl

theorem opens?_of_allBlank {line : Text} (h : line.allBlank = true) : line.opens? = none := by
  rw [opens?, Header.ofLine?_of_allBlank h]
  rfl

theorem blockAfter_of_space {block : Option Field} {line : Text} (h : line.head? = some ' ') :
    blockAfter block line = block :=
  if_pos h

theorem blockAfter_of_not_space {block : Option Field} {line : Text}
    (h : line.head? ≠ some ' ') : blockAfter block line = line.opens? :=
  if_neg h

variable {fields : FieldSet} {block : Option Field}

/-- No line of blanks stands in a block if the first line is none, where it goes on with a block of the
fields, and there is none after it. -/
theorem hasBlankInBlock_cons_eq_false {line : Text} {lines : List Text} :
    hasBlankInBlock fields block (line :: lines) = false ↔
      (∀ f, block = some f → f ∈ fields → line.head? = some ' ' → line.allBlank = false) ∧
        hasBlankInBlock fields (blockAfter block line) lines = false := by
  rw [hasBlankInBlock, Bool.or_eq_false_iff]
  refine and_congr_left' ?_
  cases block with
  | none => simp
  | some f =>
    by_cases hf : f ∈ fields <;> by_cases hs : line.head? = some ' ' <;> simp [hf, hs]

/-- **What is open after some lines.** Lines that start with a space go on with what is open, and any other
line opens something new or nothing. So the last line that opened something has only lines after it that
go on with it. -/
theorem foldl_eq_some_iff {β : Type} {next : Option β → Text → Option β} {opens : Text → Option β}
    {goOn : β → Text → β}
    (hspace : ∀ b? line, line.head? = some ' ' → next b? line = b?.map (goOn · line))
    (houtside : ∀ b? line, line.head? ≠ some ' ' → next b? line = opens line)
    (hopens : ∀ line, line.head? = some ' ' → opens line = none) {lines : List Text} {b : β} :
    lines.foldl next none = some b ↔
      ∃ before header body b₀, lines = before ++ header :: body ∧ opens header = some b₀ ∧
        (∀ line ∈ body, line.head? = some ' ') ∧ b = body.foldl goOn b₀ := by
  -- What the last line does decides, so the induction takes lines from the end.
  induction lines using List.reverseRecOn generalizing b with
  | nil => simp
  | append_singleton lines last ih =>
    rw [List.foldl_append, List.foldl_cons, List.foldl_nil]
    by_cases hs : last.head? = some ' '
    · rw [hspace _ _ hs, Option.map_eq_some_iff]
      constructor
      · rintro ⟨b₁, hb₁, rfl⟩
        obtain ⟨before, header, body, b₀, rfl, hb₀, hbody, rfl⟩ := ih.1 hb₁
        refine ⟨before, header, body ++ [last], b₀, by simp, hb₀, fun line hl => ?_, by simp⟩
        rcases List.mem_append.1 hl with hl | hl
        · exact hbody line hl
        · exact List.mem_singleton.1 hl ▸ hs
      · rintro ⟨before, header, body, b₀, heq, hb₀, hbody, rfl⟩
        -- The last line is no header, so that it is the last one of the body.
        rcases List.eq_nil_or_concat body with rfl | ⟨body, line, rfl⟩
        · obtain ⟨-, rfl⟩ := List.append_singleton_inj.1 heq
          rw [hopens _ hs] at hb₀
          cases hb₀
        · rw [List.concat_eq_append, ← List.cons_append, ← List.append_assoc] at heq
          obtain ⟨rfl, rfl⟩ := List.append_singleton_inj.1 heq
          have hbefore : ∀ l ∈ body, l.head? = some ' ' := fun l hl => hbody l (by simp [hl])
          exact ⟨body.foldl goOn b₀, ih.2 ⟨before, header, body, b₀, rfl, hb₀, hbefore, rfl⟩, by simp⟩
    · -- The last line is the only candidate for the header, with no line after it.
      rw [houtside _ _ hs]
      constructor
      · intro hb
        exact ⟨lines, last, [], b, rfl, hb, by simp, rfl⟩
      · rintro ⟨before, header, body, b₀, heq, hb₀, hbody, rfl⟩
        rcases List.eq_nil_or_concat body with rfl | ⟨body, line, rfl⟩
        · obtain ⟨-, rfl⟩ := List.append_singleton_inj.1 heq
          exact hb₀
        · rw [List.concat_eq_append, ← List.cons_append, ← List.append_assoc] at heq
          obtain ⟨-, rfl⟩ := List.append_singleton_inj.1 heq
          exact absurd (hbody last (by simp)) hs

/-- **The block that is open after some lines.** The last line that starts without a space is its
header. -/
theorem foldl_blockAfter_eq_some_iff {lines : List Text} {f : Field} :
    lines.foldl blockAfter none = some f ↔
      ∃ before header body, lines = before ++ header :: body ∧ opens? header = some f ∧
        ∀ line ∈ body, line.head? = some ' ' := by
  -- A field is all that a block carries here, and its lines do not change it.
  have hfold (body : List Text) (f : Field) : body.foldl (fun f _ => f) f = f := by
    induction body with
    | nil => rfl
    | cons line body ih => exact ih
  have hspace (block : Option Field) (line : Text) (h : line.head? = some ' ') :
      blockAfter block line = block.map ((fun f _ => f) · line) := by
    rw [blockAfter_of_space h]
    cases block <;> rfl
  rw [foldl_eq_some_iff hspace (fun _ _ h => blockAfter_of_not_space h) fun _ h => opens?_of_space h]
  constructor
  · rintro ⟨before, header, body, g, rfl, ho, hbody, heq⟩
    rw [hfold] at heq
    exact ⟨before, header, body, rfl, heq ▸ ho, hbody⟩
  · rintro ⟨before, header, body, rfl, ho, hbody⟩
    exact ⟨before, header, body, f, rfl, ho, hbody, (hfold body f).symm⟩

/-- A line of blanks that counts has lines before it which leave a block of one of the fields open. -/
theorem hasBlankInBlock_eq_true_iff {lines : List Text} :
    hasBlankInBlock fields block lines = true ↔
      ∃ before blank after f, lines = before ++ blank :: after ∧
        before.foldl blockAfter block = some f ∧ f ∈ fields ∧ blank.head? = some ' ' ∧
        allBlank blank = true := by
  induction lines generalizing block with
  | nil => simp [hasBlankInBlock]
  | cons line lines ih =>
    rw [hasBlankInBlock, Bool.or_eq_true, ih]
    constructor
    · rintro (h | ⟨before, blank, after, f, rfl, hf, hrest⟩)
      · simp only [Bool.and_eq_true, decide_eq_true_eq, Option.any_eq_true] at h
        -- Either the first line is the one, with no line before it, or a later one is.
        obtain ⟨⟨hs, hl⟩, f, hf, hmem⟩ := h
        exact ⟨[], line, lines, f, rfl, hf, hmem, hs, hl⟩
      · exact ⟨line :: before, blank, after, f, rfl, hf, hrest⟩
    · rintro ⟨_ | ⟨first, before⟩, blank, after, f, heq, hf, hmem, hs, hl⟩
      · obtain ⟨rfl, rfl⟩ := List.cons.inj heq
        obtain rfl : block = some f := hf
        exact .inl (by simp [hs, hl, hmem])
      · obtain ⟨rfl, rfl⟩ := List.cons.inj heq
        exact .inr ⟨before, blank, after, f, rfl, hf, hmem, hs, hl⟩

/-- **What a blank line in a block is.** It starts with a space, only lines that start with a space stand
between it and a header, and the header opens a block of one of the fields. -/
theorem hasBlankInBlock_iff {lines : List Text} :
    hasBlankInBlock fields none lines = true ↔
      ∃ before header body blank after f, lines = before ++ header :: (body ++ blank :: after) ∧
        opens? header = some f ∧ f ∈ fields ∧ (∀ line ∈ body, line.head? = some ' ') ∧
        blank.head? = some ' ' ∧ allBlank blank = true := by
  rw [hasBlankInBlock_eq_true_iff]
  constructor
  · rintro ⟨before, blank, after, f, rfl, hf, hmem, hs, hl⟩
    obtain ⟨before, header, body, rfl, ho, hbody⟩ := foldl_blockAfter_eq_some_iff.1 hf
    exact ⟨before, header, body, blank, after, f, by simp, ho, hmem, hbody, hs, hl⟩
  · rintro ⟨before, header, body, blank, after, f, rfl, ho, hmem, hbody, hs, hl⟩
    exact ⟨before ++ header :: body, blank, after, f, by simp,
      foldl_blockAfter_eq_some_iff.2 ⟨before, header, body, rfl, ho, hbody⟩, hmem, hs, hl⟩

end Text

/-! ### Where a session stands -/

namespace Session

variable {s s' : Session} {line : Text} {o : Outcome} {block : Option Field}

/-- The session is in the block with which the lines may go on, if its field is selected, and in none
otherwise. -/
def Follows (s : Session) (block : Option Field) : Prop :=
  s.finished = false ∧ s.phase.block? = block.filter (· ∈ s.mask)

/-- A session outside of a block follows the lines as long as the block of the lines is not selected. -/
theorem follows_of_idle (hp : s.phase = .idle) (h : ∀ f, block = some f → f ∉ s.mask) :
    s.Follows block := by
  refine ⟨by simp [finished, hp], ?_⟩
  rw [hp]
  cases block with
  | none => rfl
  | some f => simp [Phase.block?, Option.filter, h f rfl]

/-- A session that follows the lines takes a line as one of its block just where it starts with a space
and the block is selected. So the lines decide it, and the session is not needed. -/
theorem Follows.isBody_iff (h : s.Follows block) :
    s.isBody line = true ↔ line.head? = some ' ' ∧ ∃ f, block = some f ∧ f ∈ s.mask := by
  unfold isBody
  rw [h.2]
  cases block with
  | none => simp
  | some f => by_cases hf : f ∈ s.mask <;> simp [Option.filter, hf]

/-- A line that is no selected header opens no selected block. -/
theorem filter_opens?_of_header?_eq_none (hh : s.header? line = none) :
    (Text.opens? line).filter (· ∈ s.mask) = none := by
  unfold header? at hh
  unfold Text.opens?
  cases hl : Header.ofLine? line with
  | none => rfl
  | some h =>
    rw [hl] at hh
    simp only [Option.filter_eq_none_iff, Option.some.injEq, forall_eq', decide_eq_true_eq] at hh
    -- A header that is known and not selected opens at most a block that is not selected.
    by_cases hb : h.field.isBlock = true <;> simp [Option.filter, hb, hh]

/-- A selected header opens the block of its field, if the field has one. -/
theorem filter_opens?_of_header?_eq_some {h : Header} (hh : s.header? line = some h) :
    (Text.opens? line).filter (· ∈ s.mask) = (some h.field).filter Field.isBlock := by
  obtain ⟨hl, hm⟩ := Option.filter_eq_some_iff.1 hh
  unfold Text.opens?
  rw [hl]
  cases hb : h.field.isBlock <;> simp_all [Option.filter]

/-- **A session follows the lines.** A line that goes on with the record leaves the session in the block
of the lines so far. -/
theorem Step.follows (h : s.Step line s' o) (hs : s.Follows block)
    (ho : o = .goesOn ∨ o = .malformed) : s'.Follows (Text.blockAfter block line) := by
  refine ⟨h.not_finished ho, ?_⟩
  rw [h.mask_eq]
  -- A header does not start with a space, so that the block after it is the one that it opens.
  have hspace : ∀ {h : Header}, s.header? line = some h → line.head? ≠ some ' ' := by
    intro h hh hs
    simp [header?, Header.ofLine?_of_space hs] at hh
  -- A line that does start with one and is passed over has no selected block to go on with.
  have hclosed : s.isBody line = false → line.head? = some ' ' →
      block.filter (· ∈ s.mask) = none := by
    intro hb hsp
    rw [Option.filter_eq_none_iff]
    intro f hf hmem
    rw [hs.isBody_iff.2 ⟨hsp, f, hf, by simpa using hmem⟩] at hb
    cases hb
  cases h with
  | late => simp at ho
  | text hp hb =>
    -- the block goes on, for the lines and for the session
    rw [Text.blockAfter_of_space (hs.isBody_iff.1 hb).1, ← hs.2, hp]
    rfl
  | file hp hb =>
    rw [Text.blockAfter_of_space (hs.isBody_iff.1 hb).1, ← hs.2]
  | blank => simp at ho
  | other hf hb hl hh =>
    rw [close_phase hf]
    by_cases hsp : line.head? = some ' '
    · rw [Text.blockAfter_of_space hsp, hclosed hb hsp]
      rfl
    · rw [Text.blockAfter_of_not_space hsp, filter_opens?_of_header?_eq_none hh]
      rfl
  | single hf hh hk hput =>
    -- a field of one line opens nothing
    rw [close_phase (by exact hf), Text.blockAfter_of_not_space (hspace hh),
      filter_opens?_of_header?_eq_some hh, Option.filter, Field.isBlock_of_single hk]
    rfl
  | refused => simp at ho
  | description hf hh hk =>
    -- the header is selected, so that the session is in the block that it opens
    rw [Text.blockAfter_of_not_space (hspace hh), filter_opens?_of_header?_eq_some hh,
      Field.eq_description hk]
    rfl
  | conffiles hf hh hk =>
    rw [Text.blockAfter_of_not_space (hspace hh), filter_opens?_of_header?_eq_some hh,
      Field.eq_conffiles hk]
    rfl

/-- After the end of a record the lines go on with no selected block. -/
theorem Step.follows_ended (h : s.Step line s' .ended) (hs : s.Follows block) {f : Field}
    (hf : Text.blockAfter block line = some f) : f ∉ s.mask := by
  intro hmem
  generalize ho : Outcome.ended = o at h
  cases h with
  | blank hfin hb hl =>
    -- A blank line goes on with a block or opens none. In a selected block it would not end the record.
    by_cases hsp : line.head? = some ' '
    · rw [Text.blockAfter_of_space hsp] at hf
      rw [hs.isBody_iff.2 ⟨hsp, f, hf, hmem⟩] at hb
      cases hb
    · rw [Text.blockAfter_of_not_space hsp, Text.opens?_of_allBlank hl] at hf
      cases hf
  | file => split at ho <;> cases ho
  | single => split at ho <;> cases ho
  | late | text | other | refused | description | conffiles => cases ho

/-- **Which lines end a record.** A line does if it is blank, unless it stands in a selected block. -/
theorem Step.ended_iff (h : s.Step line s' o) (hs : s.Follows block) :
    o = .ended ↔
      line.allBlank = true ∧ ¬(line.head? = some ' ' ∧ ∃ f, block = some f ∧ f ∈ s.mask) := by
  rw [← hs.isBody_iff]
  cases h with
  | late hf => simp [hs.1] at hf
  | text hp hb => simp [hb]
  | file hp hb =>
    -- A line of files may be malformed, but the record goes on either way.
    simp only [hb, not_true_eq_false, and_false, iff_false]
    split <;> simp
  | blank hf hb hl => simp [hb, hl]
  | other hf hb hl hh => simp [hl]
  | single hf hh =>
    -- A header is not blank, and its value decides only whether the line is malformed.
    simp only [allBlank_of_header? hh, Bool.false_eq_true, false_and, iff_false]
    split <;> simp
  | refused hf hh => simp [allBlank_of_header? hh]
  | description hf hh => simp [allBlank_of_header? hh]
  | conffiles hf hh => simp [allBlank_of_header? hh]

end Session

end ControlFile

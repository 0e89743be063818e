import ControlFile.Proofs.Blocks
import ControlFile.Proofs.Feeding

/-!
# What the blocks of a record leave in it

`Text.blocks` divides lines into blocks without a session: each selected header of a description or of a
list of configuration files, with the maximal run of lines directly after it that start with a space. The
description of a record is the text of its last block of this kind, and its configuration files are those
of all blocks, in order (`feedAll_blocks`).

A session has not more than one block open, and which one, with which lines, is known from the lines that
it has read (`Session.InBlock`). A line that starts with a space goes on with this block; any other line
ends it and opens a new one if it is a header (`Block.next`). So each line says by itself what becomes of
the description, whatever it was before: nothing while its block goes on, and the text of the block when
it ends (`Session.Step.description_eq`). A description is stored once for each of its blocks, by the line
that ends it or at the end of the lines (`Session.descriptionsStored_eq`).
-/

namespace ControlFile

/-! ### Blocks of lines -/

/-- The configuration file that two words denote. -/
def Conffile.ofWords? : List Text → Option Conffile
  | [path, md5sum] => some ⟨path, md5sum⟩
  | _ => none

/-- The lines of a description, the first of which is the value of its header, or the lines of a list of
configuration files, without its header. -/
inductive Block where
  | description (summary : Text) (body : List Text)
  | conffiles (body : List Text)
  deriving DecidableEq, Repr

namespace Block

/-- The field of the header of a block. -/
def field : Block → Field
  | .description .. => .description
  | .conffiles _ => .conffiles

/-- The lines of a block after its header. -/
def body : Block → List Text
  | .description _ body => body
  | .conffiles body => body

/-- The block with more lines. -/
def extend : Block → List Text → Block
  | .description summary body, lines => .description summary (body ++ lines)
  | .conffiles body, lines => .conffiles (body ++ lines)

/-- The block that a line opens as its selected header. -/
def ofHeader? (mask : FieldSet) (line : Text) : Option Block :=
  ((Header.ofLine? line).filter (·.field ∈ mask)).bind fun h =>
    match h.field.kind with
    | .description => some (.description (Header.valueAfter h.name line) [])
    | .conffiles => some (.conffiles [])
    | .single _ => none

/-- The text of a description, its lines as they are. -/
def text? : Block → Option Text
  | .description summary body => some (Text.join ['\n'] (summary :: body))
  | .conffiles _ => none

/-- The configuration files that lines of a block name: one for each line of two words. -/
def filesIn : Block → List Text → List Conffile
  | .description .., _ => []
  | .conffiles _, lines => lines.filterMap fun line => Conffile.ofWords? line.words

/-- The configuration files of a block. -/
def files (b : Block) : List Conffile := b.filesIn b.body

/-- The open block after a line. A line that starts with a space belongs to it, and any other line is
outside. -/
def next (mask : FieldSet) (b? : Option Block) (line : Text) : Option Block :=
  if line.head? = some ' ' then b?.map (·.extend [line]) else ofHeader? mask line

end Block

namespace Text

/-- The blocks of lines: each selected header with the lines directly after it that start with a
space. -/
def blocks (mask : FieldSet) : List Text → List Block
  | [] => []
  | line :: lines =>
    ((Block.ofHeader? mask line).map
      (·.extend (lines.takeWhile fun t => t.head? = some ' '))).toList ++ blocks mask lines

/-- The block that lines end in, if the next line may go on with one. -/
def openBlock? (mask : FieldSet) (lines : List Text) : Option Block :=
  lines.foldl (Block.next mask) none

end Text

namespace Block

variable {mask : FieldSet} {line : Text} {lines : List Text} {b : Block} {b? : Option Block}

@[simp] theorem extend_nil (b : Block) : b.extend [] = b := by cases b <;> simp [extend]

@[simp] theorem extend_extend (b : Block) (xs ys : List Text) :
    (b.extend xs).extend ys = b.extend (xs ++ ys) := by
  cases b <;> simp [extend]

/-- Lines that go on with a block one by one are added to it in order. -/
theorem foldl_extend (b : Block) (xs : List Text) :
    xs.foldl (fun b line => b.extend [line]) b = b.extend xs := by
  induction xs generalizing b with
  | nil => exact (extend_nil b).symm
  | cons line xs ih => rw [List.foldl_cons, ih, extend_extend, List.singleton_append]

@[simp] theorem field_extend (b : Block) (xs : List Text) : (b.extend xs).field = b.field := by
  cases b <;> rfl

/-- More lines of a block add their files behind those that it has. -/
theorem files_extend (b : Block) (xs : List Text) : (b.extend xs).files = b.files ++ b.filesIn xs := by
  cases b <;> simp [extend, files, body, filesIn]

theorem next_of_space (h : line.head? = some ' ') : next mask b? line = b?.map (·.extend [line]) :=
  if_pos h

theorem next_of_not_space (h : line.head? ≠ some ' ') : next mask b? line = ofHeader? mask line :=
  if_neg h

theorem ofHeader?_of_header?_eq_none {s : Session} (hh : s.header? line = none) :
    ofHeader? s.mask line = none := by
  rw [ofHeader?, show (Header.ofLine? line).filter (·.field ∈ s.mask) = none from hh]
  rfl

/-- A selected header opens a block if its field has one. -/
theorem ofHeader?_of_header? {s : Session} {h : Header} (hh : s.header? line = some h) :
    ofHeader? s.mask line = match h.field.kind with
      | .description => some (.description (Header.valueAfter h.name line) [])
      | .conffiles => some (.conffiles [])
      | .single _ => none := by
  rw [ofHeader?, show (Header.ofLine? line).filter (·.field ∈ s.mask) = some h from hh]
  rfl

theorem ofHeader?_of_space (h : line.head? = some ' ') : ofHeader? mask line = none := by
  rw [ofHeader?, Header.ofLine?_of_space h]
  rfl

/-- A block that a line opens is selected and has no files yet. -/
theorem of_ofHeader? (h : ofHeader? mask line = some b) : b.field ∈ mask ∧ b.files = [] := by
  obtain ⟨hd, hfilter, hb⟩ := Option.bind_eq_some_iff.1 h
  have hmem : hd.field ∈ mask := by simpa using (Option.filter_eq_some_iff.1 hfilter).2
  split at hb
  · rename_i hk
    obtain rfl := Option.some.inj hb
    rw [Field.eq_description hk] at hmem
    exact ⟨hmem, rfl⟩
  · rename_i hk
    obtain rfl := Option.some.inj hb
    rw [Field.eq_conffiles hk] at hmem
    exact ⟨hmem, rfl⟩
  · cases hb

end Block

namespace Text

variable {mask : FieldSet} {line : Text} {lines : List Text} {b : Block} {b? : Option Block}

/-- The blocks of lines where a block is open: its own further lines come first. -/
def blocksFrom (mask : FieldSet) (b? : Option Block) (lines : List Text) : List Block :=
  (b?.map (·.extend (lines.takeWhile fun t => t.head? = some ' '))).toList ++ blocks mask lines

theorem blocksFrom_none : blocksFrom mask none lines = blocks mask lines := rfl

theorem blocksFrom_nil : blocksFrom mask b? [] = b?.toList := by
  cases b? <;> simp [blocksFrom, blocks]

/-- A line that starts with a space moves into the open block. -/
theorem blocksFrom_cons_of_space (h : line.head? = some ' ') :
    blocksFrom mask b? (line :: lines) = blocksFrom mask (Block.next mask b? line) lines := by
  rw [Block.next_of_space h, blocksFrom, blocks, Block.ofHeader?_of_space h, blocksFrom]
  cases b? <;> simp [h]

/-- Any other line ends the open block. -/
theorem blocksFrom_cons_of_not_space (h : line.head? ≠ some ' ') :
    blocksFrom mask b? (line :: lines) =
      b?.toList ++ blocksFrom mask (Block.next mask b? line) lines := by
  rw [Block.next_of_not_space h, blocksFrom, blocks, blocksFrom]
  cases b? <;> simp [h]

/-- **What the open block is.** Its header is followed by lines that start with a space only, to the end,
and these lines are its body. -/
theorem openBlock?_eq_some_iff :
    openBlock? mask lines = some b ↔
      ∃ before header body b₀, lines = before ++ header :: body ∧
        Block.ofHeader? mask header = some b₀ ∧ (∀ line ∈ body, line.head? = some ' ') ∧
        b = b₀.extend body := by
  have hspace (b? : Option Block) (line : Text) (h : line.head? = some ' ') :
      Block.next mask b? line = b?.map fun b => b.extend [line] := Block.next_of_space h
  rw [openBlock?, foldl_eq_some_iff hspace (fun _ _ h => Block.next_of_not_space h)
    fun _ h => Block.ofHeader?_of_space h]
  simp only [Block.foldl_extend]

end Text

/-! ### What a record stores of a block -/

/-- A file is read from two words, and from no other number of them. -/
theorem Conffile.toOption_ofLine? (line : Text) : (ofLine? line).toOption = ofWords? line.words := by
  unfold ofLine?
  -- Only the number of words counts. The patterns are those of the reader.
  generalize line.words = words
  match words with
  | [path, md5sum] => rfl
  | [] | [_] | _ :: _ :: _ :: _ => rfl

namespace Package

/-- A line of two words adds its file to the record, and any other line adds none. -/
theorem addConffile_package (p : Package) (line : Text) :
    (p.addConffile line).package =
      { p with conffiles := p.conffiles ++ (Block.conffiles []).filesIn [line] } := by
  have hwords := Conffile.toOption_ofLine? line
  unfold addConffile
  cases hread : Conffile.ofLine? line with
  | ok c =>
    rw [hread] at hwords
    simp [Block.filesIn, ← hwords, Except.toOption]
  | error cause =>
    rw [hread] at hwords
    simp [Block.filesIn, ← hwords, Except.toOption]

/-- The value of a field on one line is not stored where blocks are. -/
theorem put_blocks {p : Package} {entries : List ArchPriority} {slot : Slot} {value : Text}
    {built : Built} (hput : p.put entries slot value = .ok built) :
    built.package.description = p.description ∧ built.package.conffiles = p.conffiles := by
  -- The field of a slot is neither of the two, so both are seen in a restriction that leaves it out.
  have houtside : slot.field ∉ FieldSet.single .description ∪ FieldSet.single .conffiles := by
    cases slot with
    | text a | number a | switch a | relation a => cases a <;> decide
    | architecture | version | status => decide
  have hsame := put_restrict_of_not_mem houtside hput
  have hdescription := congrArg Package.description hsame
  have hconffiles := congrArg Package.conffiles hsame
  simp only [restrict, FieldSet.mem_union, FieldSet.mem_single, true_or, or_true, if_true]
    at hdescription hconffiles
  exact ⟨hdescription, hconffiles⟩

end Package

/-! ### The block of a session -/

/-- The phase of a session with this block open, or with none. -/
def Phase.ofBlock? : Option Block → Phase
  | none => .idle
  | some (.description summary body) => .description summary body.reverse
  | some (.conffiles _) => .conffiles

namespace Session

variable {s s' : Session} {line : Text} {lines : List Text} {o : Outcome} {b : Block}
  {b? : Option Block}

/-- The session has this block open, which is a selected one, or no block. After the end of its record it
has none. -/
structure InBlock (s : Session) (b? : Option Block) : Prop where
  phase : s.phase = .ofBlock? b? ∨ s.phase = .finished ∧ b? = none
  mem : ∀ b, b? = some b → b.field ∈ s.mask

/-- Before the end of the record the phase is that of the open block. -/
theorem InBlock.phase_of_not_finished (h : s.InBlock b?) (hf : s.finished = false) :
    s.phase = .ofBlock? b? := by
  rcases h.phase with hp | ⟨hp, -⟩
  · exact hp
  · simp [finished, hp] at hf

/-- The lines of the open block are those that start with a space. -/
theorem InBlock.isBody_iff (h : s.InBlock b?) (hf : s.finished = false) :
    s.isBody line = true ↔ line.head? = some ' ' ∧ b?.isSome = true := by
  have hp := h.phase_of_not_finished hf
  unfold isBody
  cases b? with
  | none => simp [hp, Phase.ofBlock?, Phase.block?]
  | some b =>
    have hmem := h.mem b rfl
    -- Both kinds of block have their field selected, and their phase says which of them is open.
    cases b with
    | description | conffiles =>
      simp only [Block.field] at hmem
      simp [hp, Phase.ofBlock?, Phase.block?, hmem]

/-- The lines that a session has kept of a description are those of its block, the latest first. -/
theorem InBlock.description_eq (h : s.InBlock b?) {summary : Text} {body : List Text}
    (hp : s.phase = .description summary body) : b? = some (.description summary body.reverse) := by
  rcases h.phase with hp' | ⟨hp', -⟩
  · rw [hp] at hp'
    match b? with
    | some (.description summary' body') =>
      obtain ⟨rfl, rfl⟩ := Phase.description.inj hp'
      rw [List.reverse_reverse]
  · rw [hp] at hp'
    cases hp'

/-- A session in a list of files is in a block of files. -/
theorem InBlock.conffiles_eq (h : s.InBlock b?) (hp : s.phase = .conffiles) :
    ∃ body, b? = some (.conffiles body) := by
  rcases h.phase with hp' | ⟨hp', -⟩
  · rw [hp] at hp'
    match b? with
    | some (.conffiles body) => exact ⟨body, rfl⟩
  · rw [hp] at hp'
    cases hp'

/-- The end of the open block stores its text, if it is a description. -/
theorem InBlock.description_close (h : s.InBlock b?) :
    s.close.package.description = (b?.bind Block.text?).or s.package.description := by
  rcases h.phase with hp | ⟨hp, rfl⟩
  · cases b? with
    | none =>
      rw [close_of_idle hp]
      rfl
    | some b =>
      cases b with
      | description summary body => simp [close, hp, Phase.ofBlock?, Block.text?, descriptionText]
      | conffiles body => simp [close, hp, Phase.ofBlock?, Block.text?]
  · simp [close, hp]

/-- The files of a block are stored line by line, so nothing is left to store at its end. -/
theorem conffiles_close (s : Session) : s.close.package.conffiles = s.package.conffiles := by
  unfold close
  split <;> rfl

/-- A block that goes on was a selected one, and one that is opened is selected. -/
theorem InBlock.mem_next (h : s.InBlock b?) (hb : Block.next s.mask b? line = some b) :
    b.field ∈ s.mask := by
  unfold Block.next at hb
  split at hb
  · -- More lines do not change the field of a block.
    obtain ⟨b₀, hb₀, rfl⟩ := Option.map_eq_some_iff.1 hb
    rw [Block.field_extend]
    exact h.mem b₀ hb₀
  · exact (Block.of_ofHeader? hb).1

/-- A line that starts with a space and belongs to no block shows that none is open. -/
theorem InBlock.eq_none_of_space (h : s.InBlock b?) (hf : s.finished = false)
    (hb : s.isBody line = false) (hsp : line.head? = some ' ') : b? = none := by
  by_contra hne
  rw [(h.isBody_iff hf).2 ⟨hsp, Option.isSome_iff_ne_none.2 hne⟩] at hb
  cases hb

/-- Outside the open block, a line that is no selected header leaves no block open. -/
theorem InBlock.next_eq_none (h : s.InBlock b?) (hf : s.finished = false)
    (hb : s.isBody line = false) (hh : s.header? line = none) :
    Block.next s.mask b? line = none := by
  by_cases hs : line.head? = some ' '
  · -- There was no block that the line could have gone on with.
    rw [Block.next_of_space hs, h.eq_none_of_space hf hb hs]
    rfl
  · rw [Block.next_of_not_space hs, Block.ofHeader?_of_header?_eq_none hh]

theorem head?_of_header? {h : Header} (hh : s.header? line = some h) : line.head? ≠ some ' ' := by
  intro hs
  rw [header?_of_space hs] at hh
  cases hh

/-- **A session is in the block of the lines.** This is so after each line, also after the one that ends
the record. -/
theorem Step.inBlock (h : s.Step line s' o) (hs : s.InBlock b?) (hf : s.finished = false)
    (ho : ∀ cause, o ≠ .refused cause) : s'.InBlock (Block.next s.mask b? line) := by
  refine ⟨?_, fun b hb => by rw [h.mask_eq]; exact hs.mem_next hb⟩
  cases h with
  | late hf' => simp [hf] at hf'
  | refused => exact absurd rfl (ho _)
  | text hp hb =>
    -- the session keeps the lines of a description with the latest one first
    left
    rw [hs.description_eq hp, Block.next_of_space (head?_of_isBody hb)]
    simp [Block.extend, Phase.ofBlock?]
  | file hp hb =>
    left
    obtain ⟨body, rfl⟩ := hs.conffiles_eq hp
    rw [Block.next_of_space (head?_of_isBody hb)]
    exact hp
  | blank hf hb hl => exact .inr ⟨rfl, hs.next_eq_none hf hb (header?_of_allBlank hl)⟩
  | other hf hb hl hh =>
    left
    rw [close_phase hf, hs.next_eq_none hf hb hh]
    rfl
  | single hf hh hk hput =>
    -- a field of one line ends the block and opens none
    left
    rw [close_phase (by exact hf), Block.next_of_not_space (head?_of_header? hh),
      Block.ofHeader?_of_header? hh, hk]
    rfl
  | description hf hh hk | conffiles hf hh hk =>
    left
    rw [Block.next_of_not_space (head?_of_header? hh), Block.ofHeader?_of_header? hh, hk]
    rfl

/-! ### One line -/

/-- **A line of the open block** goes on with the record, and changes nothing in it but the configuration
files, if the block is a list of them. -/
theorem Step.package_of_space (h : s.Step line s' o) (hs : s.InBlock (some b))
    (hf : s.finished = false) (hsp : line.head? = some ' ') :
    o ≠ .ended ∧ s'.package =
      { s.package with conffiles := s.package.conffiles ++ b.filesIn [line] } := by
  have hbody : s.isBody line = true := (hs.isBody_iff hf).2 ⟨hsp, rfl⟩
  cases h with
  | late hf' => simp [hf] at hf'
  | text hp hb =>
    -- A line of a description is kept apart from the record until the block ends.
    obtain rfl := Option.some.inj (hs.description_eq hp)
    simp [Block.filesIn]
  | file hp hb =>
    obtain ⟨body, hblock⟩ := hs.conffiles_eq hp
    obtain rfl := Option.some.inj hblock
    exact ⟨by split <;> simp, Package.addConffile_package s.package line⟩
  | blank hf hb | other hf hb => simp [hbody] at hb
  | single hf hh | refused hf hh | description hf hh | conffiles hf hh =>
    -- a header does not start with a space
    exact absurd hsp (head?_of_header? hh)

/-- **A line outside the open block** ends it. Its text is stored, if it is a description, and there are no
more configuration files than before. -/
theorem Step.package_outside (h : s.Step line s' o) (hs : s.InBlock b?) (hf : s.finished = false)
    (ho : ∀ cause, o ≠ .refused cause) (hb : s.isBody line = false) :
    s'.package.description = (b?.bind Block.text?).or s.package.description ∧
      s'.package.conffiles = s.package.conffiles := by
  cases h with
  | late hf' => simp [hf] at hf'
  | refused => exact absurd rfl (ho _)
  | text hp hb' | file hp hb' => simp [hb] at hb'
  | blank | other | description | conffiles => exact ⟨hs.description_close, conffiles_close s⟩
  | @single h slot built hf hh hk hput =>
    -- The value itself is stored elsewhere.
    obtain ⟨hdescription, hconffiles⟩ := Package.put_blocks hput
    have hs' : InBlock { s with package := built.package } b? := ⟨hs.phase, hs.mem⟩
    rw [← hdescription, ← hconffiles]
    exact ⟨hs'.description_close, conffiles_close _⟩

/-- **What a line does to the description**, whatever it was before. -/
theorem Step.description_eq (h : s.Step line s' o) (hs : s.InBlock b?) (hf : s.finished = false)
    (ho : ∀ cause, o ≠ .refused cause) :
    s'.package.description =
      (if line.head? = some ' ' then none else b?.bind Block.text?).or s.package.description := by
  cases hb : s.isBody line with
  | true =>
    obtain ⟨hsp, hblock⟩ := (hs.isBody_iff hf).1 hb
    obtain ⟨b, rfl⟩ := Option.isSome_iff_exists.1 hblock
    -- Inside its block a description is not stored.
    rw [if_pos hsp, (h.package_of_space hs hf hsp).2]
    rfl
  | false =>
    rw [(h.package_outside hs hf ho hb).1]
    by_cases hsp : line.head? = some ' '
    · rw [if_pos hsp, hs.eq_none_of_space hf hb hsp]
      rfl
    · rw [if_neg hsp]

/-- What a line does to the configuration files. -/
theorem Step.conffiles_eq (h : s.Step line s' o) (hs : s.InBlock b?) (hf : s.finished = false)
    (ho : ∀ cause, o ≠ .refused cause) :
    s'.package.conffiles = s.package.conffiles ++
      if line.head? = some ' ' then b?.toList.flatMap (·.filesIn [line]) else [] := by
  cases hb : s.isBody line with
  | true =>
    obtain ⟨hsp, hblock⟩ := (hs.isBody_iff hf).1 hb
    obtain ⟨b, rfl⟩ := Option.isSome_iff_exists.1 hblock
    rw [if_pos hsp, (h.package_of_space hs hf hsp).2]
    simp
  | false =>
    rw [(h.package_outside hs hf ho hb).2]
    by_cases hsp : line.head? = some ' '
    · rw [if_pos hsp, hs.eq_none_of_space hf hb hsp]
      simp
    · simp [hsp]

/-! ### All lines -/

/-- The session with another description in its record. -/
def withDescription (s : Session) (d : Option Text) : Session :=
  { s with package := { s.package with description := d } }

/-- The description that a line stores, seen in a record that has none. -/
def stores? (s : Session) (line : Text) : Option Text :=
  ((s.withDescription none).feed line).session.package.description

/-- The descriptions that lines store, and the end of the record after them, in order. -/
def descriptionsStored (s : Session) : List Text → List Text
  | [] => (s.withDescription none).finish.package.description.toList
  | line :: lines => (s.stores? line).toList ++ (s.feed line).session.descriptionsStored lines

/-- A line that is read stores the same description whatever the record has. -/
theorem InBlock.description_feed (hs : s.InBlock b?) (hf : s.finished = false)
    (hline : line.refusal? s.mask = none) (d : Option Text) :
    ((s.withDescription d).feed line).session.package.description =
      (if line.head? = some ' ' then none else b?.bind Block.text?).or d := by
  have hs' : (s.withDescription d).InBlock b? := ⟨hs.phase, hs.mem⟩
  have hf' : (s.withDescription d).finished = false := hf
  have hstep := (s.withDescription d).feed_step line
  refine hstep.description_eq hs' hf' fun cause heq => ?_
  -- Whether a line is refused does not depend on the description that the record has.
  rw [hstep.refused_iff hf'] at heq
  rw [show (s.withDescription d).mask = s.mask from rfl, hline] at heq
  cases heq

/-- The end of the input stores the open description, whatever the record has. -/
theorem InBlock.description_finish (hs : s.InBlock b?) (d : Option Text) :
    (s.withDescription d).finish.package.description = (b?.bind Block.text?).or d := by
  have hs' : (s.withDescription d).InBlock b? := ⟨hs.phase, hs.mem⟩
  exact hs'.description_close

/-- A line stores the open description if it starts without a space, and nothing otherwise. -/
theorem InBlock.stores?_eq (hs : s.InBlock b?) (hf : s.finished = false)
    (hline : line.refusal? s.mask = none) :
    s.stores? line = if line.head? = some ' ' then none else b?.bind Block.text? :=
  (hs.description_feed hf hline none).trans Option.or_none

/-- **After lines that were read** a session is in the block that the lines leave open. -/
theorem InBlock.feedAll (hs : s.InBlock b?) (h : s.feedAll lines = .ok s') :
    s'.InBlock (lines.foldl (Block.next s.mask) b?) := by
  induction lines generalizing s b? with
  | nil =>
    obtain rfl := Except.ok.inj h
    exact hs
  | cons line lines ih =>
    have hf := not_finished_of_feedAll_cons h
    obtain ⟨s₁, o, hstep, ho, hlines⟩ := feedAll_cons_eq_ok.1 h
    -- The invariant is carried over one line, and the mask with it, which says what opens a block.
    have hinto := ih (hstep.inBlock hs hf ho) hlines
    rw [hstep.mask_eq] at hinto
    exact hinto

/-- **Every description is stored once**, in the order of the blocks. -/
theorem descriptionsStored_eq (hs : s.InBlock b?) (h : s.feedAll lines = .ok s') :
    s.descriptionsStored lines = (Text.blocksFrom s.mask b? lines).filterMap Block.text? := by
  induction lines generalizing s b? with
  | nil =>
    rw [descriptionsStored, hs.description_finish, Option.or_none, Text.blocksFrom_nil]
    cases b? <;> rfl
  | cons line lines ih =>
    have hf := not_finished_of_feedAll_cons h
    obtain ⟨s₁, o, hstep, ho, hlines⟩ := feedAll_cons_eq_ok.1 h
    have hrest := ih (hstep.inBlock hs hf ho) hlines
    rw [hstep.mask_eq] at hrest
    rw [descriptionsStored, hs.stores?_eq hf (hstep.refusal?_eq_none hf ho), hstep.feed_eq.1, hrest]
    by_cases hsp : line.head? = some ' '
    · rw [if_pos hsp, Text.blocksFrom_cons_of_space hsp]
      rfl
    · -- The block that the line ends is the next one of the blocks.
      rw [if_neg hsp, Text.blocksFrom_cons_of_not_space hsp, List.filterMap_append]
      cases b? <;> rfl

/-- The description of a record is the one that was stored last. -/
theorem description_finish_of_feedAll (hs : s.InBlock b?) (h : s.feedAll lines = .ok s') :
    s'.finish.package.description =
      (s.descriptionsStored lines).getLast?.or s.package.description := by
  induction lines generalizing s b? with
  | nil =>
    obtain rfl := Except.ok.inj h
    rw [descriptionsStored, hs.description_finish, Option.or_none]
    refine (hs.description_finish s.package.description).trans ?_
    cases b?.bind Block.text? <;> rfl
  | cons line lines ih =>
    have hf := not_finished_of_feedAll_cons h
    obtain ⟨s₁, o, hstep, ho, hlines⟩ := feedAll_cons_eq_ok.1 h
    rw [ih (hstep.inBlock hs hf ho) hlines, hstep.description_eq hs hf ho, descriptionsStored,
      hs.stores?_eq hf (hstep.refusal?_eq_none hf ho), hstep.feed_eq.1, List.getLast?_append,
      Option.or_assoc]
    -- What this line stores counts only if no later line stores anything.
    cases (if line.head? = some ' ' then none else b?.bind Block.text?) <;> rfl

/-- The configuration files of a record are those of its blocks, after those that it had before the open
block. -/
theorem conffiles_finish_of_feedAll (hs : s.InBlock b?) (h : s.feedAll lines = .ok s')
    {earlier : List Conffile}
    (hearlier : s.package.conffiles = earlier ++ b?.toList.flatMap Block.files) :
    s'.finish.package.conffiles =
      earlier ++ (Text.blocksFrom s.mask b? lines).flatMap Block.files := by
  induction lines generalizing s b? earlier with
  | nil =>
    obtain rfl := Except.ok.inj h
    rw [finish_package, conffiles_close, hearlier, Text.blocksFrom_nil]
  | cons line lines ih =>
    have hf := not_finished_of_feedAll_cons h
    obtain ⟨s₁, o, hstep, ho, hlines⟩ := feedAll_cons_eq_ok.1 h
    have hfiles := hstep.conffiles_eq hs hf ho
    have hinto := hstep.inBlock hs hf ho
    by_cases hsp : line.head? = some ' '
    · rw [if_pos hsp] at hfiles
      -- The line is one of the open block, whose files it extends.
      have hextended : s₁.package.conffiles =
          earlier ++ (Block.next s.mask b? line).toList.flatMap Block.files := by
        rw [hfiles, hearlier, Block.next_of_space hsp]
        cases b? with
        | none => simp
        | some b => simp [Block.files_extend]
      rw [ih hinto hlines hextended, hstep.mask_eq, Text.blocksFrom_cons_of_space hsp]
    · rw [if_neg hsp, List.append_nil] at hfiles
      -- The block that the line opens has no files yet.
      have hfresh : (Block.next s.mask b? line).toList.flatMap Block.files = [] := by
        rw [Block.next_of_not_space hsp]
        cases hb : Block.ofHeader? s.mask line with
        | none => rfl
        | some b => simp [(Block.of_ofHeader? hb).2]
      have hkept : s₁.package.conffiles = earlier ++ b?.toList.flatMap Block.files ++
          (Block.next s.mask b? line).toList.flatMap Block.files := by
        rw [hfiles, hearlier, hfresh, List.append_nil]
      rw [ih hinto hlines hkept, hstep.mask_eq, Text.blocksFrom_cons_of_not_space hsp,
        List.flatMap_append, List.append_assoc]

theorem inBlock_start (p : Package) (m : FieldSet) (c : Config) : (start p m c).InBlock none :=
  ⟨.inl rfl, by simp⟩

end Session

variable {m : FieldSet} {c : Config} {lines : List Text} {s : Session}

/-- **What the blocks of one fresh record leave in it.** Its description is the text of the last block of
this kind, and its configuration files are those of all blocks. A description is stored once for each
block: by the line that ends the block, or at the end of the lines, and by no other. A line of an open
block does not end the record and changes nothing in it but the configuration files. -/
theorem feedAll_blocks (h : (Session.start {} m c).feedAll lines = .ok s) :
    let mask := FieldSet.effective m c.forced
    let blocks := Text.blocks mask lines
    s.finish.package.description = (blocks.filterMap Block.text?).getLast? ∧
    s.finish.package.conffiles = blocks.flatMap Block.files ∧
    (Session.start {} m c).descriptionsStored lines = blocks.filterMap Block.text? ∧
    (∀ before line after, lines = before ++ line :: after →
      ∃ s₁, (Session.start {} m c).feedAll before = .ok s₁ ∧
        (∀ b, Text.openBlock? mask before = some b → line.head? = some ' ' →
          (s₁.feed line).outcome ≠ .ended ∧
          (s₁.feed line).session.package =
            { s₁.package with conffiles := s₁.package.conffiles ++ b.filesIn [line] }) ∧
        ∀ d, ((s₁.withDescription d).feed line).session.package.description =
          (if line.head? = some ' ' then none
            else (Text.openBlock? mask before).bind Block.text?).or d) ∧
    ∀ d, (s.withDescription d).finish.package.description =
      ((Text.openBlock? mask lines).bind Block.text?).or d := by
  intro mask blocks
  have hstart := Session.inBlock_start {} m c
  have hstored : (Session.start {} m c).descriptionsStored lines = blocks.filterMap Block.text? := by
    rw [Session.descriptionsStored_eq hstart h, Text.blocksFrom_none]
    rfl
  refine ⟨?_, ?_, hstored, ?_, ?_⟩
  · rw [Session.description_finish_of_feedAll hstart h, hstored]
    exact Option.or_none
  · have hfresh : (Session.start {} m c).package.conffiles =
        [] ++ (none : Option Block).toList.flatMap Block.files := rfl
    exact Session.conffiles_finish_of_feedAll hstart h hfresh
  · rintro before line after rfl
    -- The lines before this one leave a session in their open block, and it reads this line and those
    -- after it.
    obtain ⟨s₁, hbefore, hafter⟩ := Session.feedAll_append_eq_ok.1 h
    have hs₁ : s₁.InBlock (Text.openBlock? mask before) := hstart.feedAll hbefore
    have hf := Session.not_finished_of_feedAll_cons hafter
    have hline : line.refusal? s₁.mask = none :=
      Session.refusal?_of_feedAll hf hafter line List.mem_cons_self
    refine ⟨s₁, hbefore, fun b hb hsp => ?_, hs₁.description_feed hf hline⟩
    rw [hb] at hs₁
    exact (s₁.feed_step line).package_of_space hs₁ hf hsp
  · exact (hstart.feedAll h).description_finish

/-- Two descriptions, the first with a line of blanks in it, and a list between them that names a file as if
it were a field. -/
theorem feedAll_blocks_two_descriptions :
    let lines : List Text := ["Description: d", " a", " ", "Conffiles:", " /x 1", " y", " Size: 2",
      "Description: e", "  b", ""].map String.toList
    ∃ s, (Session.start {} .full {}).feedAll lines = .ok s ∧
      s.finish.package.description = some "e\n  b".toList ∧
      s.finish.package.conffiles = [⟨"/x".toList, ['1']⟩, ⟨"Size:".toList, ['2']⟩] ∧
      (Session.start {} .full {}).descriptionsStored lines =
        ["d\n a\n ".toList, "e\n  b".toList] := by
  intro lines
  have hread : ((Session.start {} .full {}).feedAll lines).toOption.isSome = true := by decide +kernel
  cases h : (Session.start {} .full {}).feedAll lines with
  | error cause =>
    rw [h] at hread
    cases hread
  | ok s =>
    obtain ⟨hdescription, hconffiles, hstored, -, -⟩ := feedAll_blocks h
    exact ⟨s, rfl, hdescription.trans (by decide +kernel), hconffiles.trans (by decide +kernel),
      hstored.trans (by decide +kernel)⟩

end ControlFile

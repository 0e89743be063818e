import ControlFile.Proofs.Refusal
import ControlFile.Proofs.Writing
import Mathlib.Algebra.Group.Int.Defs
import Mathlib.Data.List.Chain

/-!
# Which records can be written

A record that was read has been cut into lines at newlines, and a paragraph checks its values by every line
end of Unicode. So a description may have lines for the paragraph that it had not for the reader. Likewise a
hexadecimal number of any length is read, and a number is written in decimal only if it is short enough.

These are the only two reasons for which a record of a text cannot be written
(`fields?_and_paragraph?_eq_ok_iff`). The check of a paragraph is brought to the characters of the text
first: it holds exactly if every line end is followed by a blank that ends no line
(`Text.forall_drop_lines_iff`). Behind the newlines of a block this is the space with which the next line
starts, so that only the other line ends are left (`Text.isChain_join_iff`).
-/

namespace ControlFile

/-! ### Results of a list -/

/-- A list of results is there exactly if each of its results is. -/
theorem Except.exists_mapM_eq_ok_iff {ε α β : Type} {f : α → Except ε β} {as : List α} :
    (∃ bs, as.mapM f = .ok bs) ↔ ∀ a ∈ as, ∃ b, f a = .ok b := by
  induction as with
  | nil => simp [pure, Except.pure]
  | cons a as ih =>
    rw [List.forall_mem_cons, ← ih]
    constructor
    · rintro ⟨bs, h⟩
      obtain ⟨b, rest, hb, hrest, -⟩ := mapM_cons_eq_ok h
      exact ⟨⟨b, hb⟩, rest, hrest⟩
    · rintro ⟨⟨b, hb⟩, rest, hrest⟩
      refine ⟨b :: rest, ?_⟩
      rw [List.mapM_cons, hb, hrest]
      rfl

/-- A check of all elements succeeds exactly if that of each of them does. -/
theorem Except.forM_eq_ok_iff {ε α : Type} {f : α → Except ε Unit} {as : List α} :
    forM as f = .ok () ↔ ∀ a ∈ as, f a = .ok () := by
  induction as with
  | nil => simp [pure, Except.pure]
  | cons a as ih =>
    rw [List.forall_mem_cons, ← ih, List.forM_cons, bind_eq_ok_iff]
    constructor
    · rintro ⟨⟨⟩, ha, has⟩
      exact ⟨ha, has⟩
    · rintro ⟨ha, has⟩
      exact ⟨(), ha, has⟩

/-! ### Line ends -/

/-- Every line end of Unicode is a blank. -/
theorem isBlank_of_isLineEnd {c : Char} (h : isLineEnd c = true) : isBlank c = true := by
  unfold isLineEnd at h
  unfold isBlank blankRanges
  simp only [List.any_cons, List.any_nil, Bool.or_eq_true, Bool.and_eq_true, decide_eq_true_eq,
    beq_iff_eq] at h ⊢
  omega

namespace Text

/-- A line that starts with a blank character. -/
def Indented (line : Text) : Prop := ∃ c, line.head? = some c ∧ isBlank c = true

/-- What may follow a character: behind a line end, the rest of the same line end, or a blank character that
ends no line. -/
def Indents (c next : Char) : Prop :=
  isLineEnd c = true → c = '\r' ∧ next = '\n' ∨ isBlank next = true ∧ isLineEnd next = false

instance (c next : Char) : Decidable (Indents c next) := inferInstanceAs (Decidable (_ → _ ∨ _))

/-! ### The lines of a text -/

/-- Lines that were read before are there unchanged. -/
theorem linesFrom_append (t line : Text) (done more : List Text) :
    linesFrom t line (done ++ more) = more.reverse ++ linesFrom t line done := by
  fun_induction linesFrom t line done with
  | case1 done => simp [linesFrom]
  | case2 line done hne => simp [linesFrom]
  | case3 t line done ih => simpa [linesFrom] using ih
  | case4 c t line done hcr hc ih =>
    rw [linesFrom, if_pos hc]
    · exact ih
    · exact hcr
  | case5 c t line done hcr hc ih =>
    rw [linesFrom, if_neg hc]
    · exact ih
    · exact hcr

/-- What a text may start with behind a line end. -/
def StartsIndented (t : Text) : Prop := ∀ c ∈ t.head?, isBlank c = true ∧ isLineEnd c = false

/-- The line being read is indented: it is read backwards so far, and goes on with the text. -/
def FirstIndented (line t : Text) : Prop :=
  match line.getLast? with
  | some c => isBlank c = true
  | none => t.StartsIndented

theorem not_indented_nil : ¬Indented [] := nofun

/-- A line that has begun is indented if its first character is a blank. -/
theorem firstIndented_of_ne_nil {line : Text} (hne : line ≠ []) (t : Text) :
    FirstIndented line t ↔ Indented line.reverse := by
  unfold FirstIndented Indented
  rw [List.head?_reverse, List.getLast?_eq_getLast_of_ne_nil hne]
  simp

/-- Where a line ends, no more of it is to come. -/
theorem firstIndented_of_isLineEnd {c : Char} (hc : isLineEnd c = true) (line t : Text) :
    FirstIndented line (c :: t) ↔ Indented line.reverse := by
  by_cases hne : line = []
  · subst hne
    refine iff_of_false (fun h => ?_) not_indented_nil
    have hstarts : isLineEnd c = false := (h c rfl).2
    rw [hc] at hstarts
    cases hstarts
  · exact firstIndented_of_ne_nil hne (c :: t)

/-- A character that goes on with the line may be counted as read or as ahead. -/
theorem firstIndented_cons {c : Char} (hc : isLineEnd c = false) (line t : Text) :
    FirstIndented (c :: line) t ↔ FirstIndented line (c :: t) := by
  by_cases hne : line = []
  · subst hne
    simp [FirstIndented, StartsIndented, hc]
  · unfold FirstIndented
    rw [List.getLast?_cons_of_ne_nil hne, List.getLast?_eq_getLast_of_ne_nil hne]

/-- Nothing is asked of what follows a character that ends no line. -/
theorem isChain_cons_of_not_isLineEnd {c : Char} (hc : isLineEnd c = false) (t : Text) :
    (c :: t).IsChain Indents ↔ t.IsChain Indents := by
  simp [List.isChain_cons, Indents, hc]

/-- A line end asks for a blank behind it, unless it is the first half of one. -/
theorem isChain_cons_of_isLineEnd {c : Char} {t : Text} (hc : isLineEnd c = true)
    (hcr : c = '\r' → t.head? ≠ some '\n') :
    (c :: t).IsChain Indents ↔ t.StartsIndented ∧ t.IsChain Indents := by
  rw [List.isChain_cons, StartsIndented]
  refine and_congr_left' (forall₂_congr fun y hy => ?_)
  -- a carriage return and a newline would be one line end
  have hne : ¬(c = '\r' ∧ y = '\n') := fun h => hcr h.1 (h.2 ▸ hy)
  simp [Indents, hc, hne]

/-- A carriage return and a newline are one line end, which asks once. -/
theorem isChain_cons_cons_newline (t : Text) :
    ('\r' :: '\n' :: t).IsChain Indents ↔ t.StartsIndented ∧ t.IsChain Indents := by
  have hlf : '\n' = '\r' → t.head? ≠ some '\n' := fun h => absurd h (by decide)
  rw [List.isChain_cons_cons, isChain_cons_of_isLineEnd (by decide) hlf]
  simp [Indents]

/-- **Indented lines.** All lines of a text are indented if the first is and if every line end is followed
by what may follow it. -/
theorem forall_linesFrom_iff (t line : Text) (done : List Text) :
    (∀ l ∈ linesFrom t line done, l.Indented) ↔
      (∀ l ∈ done, l.Indented) ∧ FirstIndented line t ∧ t.IsChain Indents := by
  -- the line that is being read is part of the statement: its first character may be read already
  fun_induction linesFrom t line done with
  | case1 done => simp [FirstIndented, StartsIndented]
  | case2 line done hne =>
    rw [firstIndented_of_ne_nil hne]
    simp [or_imp, forall_and, and_comm]
  | case3 t line done ih =>
    rw [ih, List.forall_mem_cons, firstIndented_of_isLineEnd (by decide), isChain_cons_cons_newline]
    show (_ ∧ _) ∧ StartsIndented t ∧ _ ↔ _
    tauto
  | case4 c t line done hcr hc ih =>
    rw [ih, List.forall_mem_cons, firstIndented_of_isLineEnd hc, isChain_cons_of_isLineEnd hc]
    · show (_ ∧ _) ∧ StartsIndented t ∧ _ ↔ _
      tauto
    · -- A newline would make this the other case.
      rintro rfl hhead
      obtain ⟨rest, rfl⟩ := List.head?_eq_some_iff.1 hhead
      exact hcr rest rfl rfl
  | case5 c t line done hcr hc ih =>
    rw [ih, firstIndented_cons (by simpa using hc), isChain_cons_of_not_isLineEnd (by simpa using hc)]

theorem linesFrom_cons_cons_newline (t line : Text) :
    linesFrom ('\r' :: '\n' :: t) line [] = line.reverse :: t.lines := by
  rw [linesFrom]
  exact linesFrom_append t [] [] [line.reverse]

/-- A line end gives the line before it, and the lines of the rest. -/
theorem linesFrom_of_isLineEnd {c : Char} {t : Text} (hc : isLineEnd c = true)
    (hcr : c = '\r' → t.head? ≠ some '\n') (line : Text) :
    linesFrom (c :: t) line [] = line.reverse :: t.lines := by
  rw [linesFrom, if_pos hc]
  · exact linesFrom_append t [] [] [line.reverse]
  · rintro rest rfl rfl
    exact hcr rfl rfl

/-- Any other character goes to the line that is being read. -/
theorem linesFrom_of_not_isLineEnd {c : Char} (hc : isLineEnd c = false) (t line : Text) :
    linesFrom (c :: t) line [] = linesFrom t (c :: line) [] := by
  rw [linesFrom, if_neg (by simp [hc])]
  rintro rest rfl
  cases hc

/-- **Lines after the first** are indented exactly if every line end is followed by what may follow it. -/
theorem forall_drop_lines_iff (t : Text) :
    (∀ l ∈ t.lines.drop 1, l.Indented) ↔ t.IsChain Indents := by
  have htail (t : Text) : (∀ l ∈ t.lines, l.Indented) ↔ StartsIndented t ∧ t.IsChain Indents :=
    (forall_linesFrom_iff t [] []).trans (and_iff_right (by simp))
  -- what has been read of the first line does not matter, so the induction is over all of it
  have key (line : Text) :
      (∀ l ∈ (linesFrom t line []).drop 1, l.Indented) ↔ t.IsChain Indents := by
    induction t generalizing line with
    | nil => cases line <;> simp [linesFrom]
    | cons c t ih =>
      cases hc : isLineEnd c with
      | false =>
        rw [linesFrom_of_not_isLineEnd hc, isChain_cons_of_not_isLineEnd hc]
        exact ih (c :: line)
      | true =>
        -- A line end has one character or two, and behind it all lines that are left are asked about.
        by_cases hcr : c = '\r' ∧ t.head? = some '\n'
        · obtain ⟨rfl, hhead⟩ := hcr
          obtain ⟨rest, rfl⟩ := List.head?_eq_some_iff.1 hhead
          rw [linesFrom_cons_cons_newline, isChain_cons_cons_newline]
          exact htail rest
        · have hcr' : c = '\r' → t.head? ≠ some '\n' := fun h h' => hcr ⟨h, h'⟩
          rw [linesFrom_of_isLineEnd hc hcr', isChain_cons_of_isLineEnd hc hcr']
          exact htail t
  exact key []

end Text

/-! ### The check of a paragraph -/

/-- **The check, character by character.** -/
theorem Unwritable.check_eq_ok_iff {t : Text} :
    check t = .ok () ↔ '\n' ∉ t ∨ t.getLast? ≠ some '\n' ∧ t.IsChain Text.Indents := by
  rw [← Text.forall_drop_lines_iff]
  unfold check
  by_cases hn : '\n' ∈ t
  · by_cases hlast : t.getLast? = some '\n'
    · simp [hn, hlast]
    · rw [if_neg (by simp [hn]), if_neg hlast, List.forM_eq_forM, Except.forM_eq_ok_iff,
        or_iff_right (not_not_intro hn), and_iff_right hlast]
      refine forall₂_congr fun line _ => ?_
      cases line with
      | nil => simp [Text.Indented]
      | cons c line => cases hc : isBlank c <;> simp [Text.Indented, hc]
  · simp [hn]

namespace Text

/-- A text in which every line end but the newline is followed by what may follow it. -/
def IndentsBreaks (t : Text) : Prop := t.IsChain fun c next => c ≠ '\n' → Indents c next

instance (t : Text) : Decidable t.IndentsBreaks := inferInstanceAs (Decidable (List.IsChain _ t))

/-- Where newlines are the only line ends, nothing is asked. -/
theorem indentsBreaks_of_forall {t : Text} (h : ∀ c ∈ t, isLineEnd c = true → c = '\n') :
    t.IndentsBreaks := by
  induction t with
  | nil => exact .nil
  | cons c t ih =>
    have hrest := ih fun c' hc' => h c' (List.mem_cons_of_mem c hc')
    apply List.IsChain.cons hrest
    intro next _ hne hend
    exact absurd (h c List.mem_cons_self hend) hne

/-- In a text without newlines the other line ends are all there are. -/
theorem isChain_iff_of_not_mem {t : Text} (h : '\n' ∉ t) : t.IsChain Indents ↔ t.IndentsBreaks := by
  apply List.IsChain.iff_of_mem_imp
  intro a b ha _
  have hne : a ≠ '\n' := fun e => h (e ▸ ha)
  simp [hne]

/-- Lines of which the first belongs to a block start with its space. -/
theorem IsBody.exists_join_eq {line : Text} (h : line.IsBody) (body : List Text) :
    ∃ rest, join ['\n'] (line :: body) = ' ' :: rest := by
  obtain ⟨line, rfl⟩ := List.head?_eq_some_iff.1 h.1
  exact ⟨_, join_append_cons ['\n'] [' '] line body⟩

/-- In a line with indented lines after it, the newlines are followed by a space anyway. -/
theorem isChain_join_iff {first : Text} {body : List Text} (hfirst : '\n' ∉ first)
    (hbody : ∀ line ∈ body, line.IsBody) :
    (join ['\n'] (first :: body)).IsChain Indents ↔ (join ['\n'] (first :: body)).IndentsBreaks := by
  induction body generalizing first with
  | nil =>
    rw [join_singleton]
    exact isChain_iff_of_not_mem hfirst
  | cons line body ih =>
    obtain ⟨hline, hrest⟩ := List.forall_mem_cons.1 hbody
    -- what follows the first newline starts with a space
    obtain ⟨rest, hjoin⟩ := hline.exists_join_eq body
    have ih := ih hline.2 hrest
    have hchain := isChain_iff_of_not_mem hfirst
    unfold IndentsBreaks at ih hchain ⊢
    -- The last character of the first line and the newline behind it meet where the texts are joined.
    have hlast : ∀ x ∈ first.getLast?, x ≠ '\n' := fun x hx hn =>
      hfirst (hn ▸ List.mem_of_mem_getLast? hx)
    rw [hjoin] at ih
    rw [join_cons_cons, hjoin, List.append_assoc, List.singleton_append, List.isChain_append,
      List.isChain_append, List.isChain_cons_cons, List.isChain_cons_cons, hchain, ih]
    have hspace : Indents '\n' ' ' ∧ ('\n' ≠ '\n' → Indents '\n' ' ') :=
      ⟨fun _ => .inr ⟨rfl, rfl⟩, fun hne => absurd rfl hne⟩
    grind

/-- A text with indented lines after the first does not end with a newline, since none of them is empty. -/
theorem getLast?_join_ne_newline {first : Text} {body : List Text} (hfirst : '\n' ∉ first)
    (hbody : ∀ line ∈ body, line.IsBody) :
    (join ['\n'] (first :: body)).getLast? ≠ some '\n' := by
  induction body generalizing first with
  | nil =>
    rw [join_singleton]
    exact fun h => hfirst (List.mem_of_mem_getLast? h)
  | cons line body ih =>
    obtain ⟨hline, hrest⟩ := List.forall_mem_cons.1 hbody
    obtain ⟨rest, hjoin⟩ := hline.exists_join_eq body
    have ih := ih hline.2 hrest
    rw [hjoin] at ih
    rw [join_cons_cons, hjoin, List.getLast?_append_of_ne_nil _ (List.cons_ne_nil ' ' rest)]
    exact ih

end Text

/-- What a paragraph asks of a line with indented lines after it. -/
theorem Unwritable.check_join_eq_ok_iff {first : Text} {body : List Text} (hfirst : '\n' ∉ first)
    (hbody : ∀ line ∈ body, line.IsBody) :
    check (Text.join ['\n'] (first :: body)) = .ok () ↔
      ('\n' ∈ Text.join ['\n'] (first :: body) →
        (Text.join ['\n'] (first :: body)).IndentsBreaks) := by
  rw [check_eq_ok_iff, and_iff_right (Text.getLast?_join_ne_newline hfirst hbody),
    Text.isChain_join_iff hfirst hbody, imp_iff_not_or]

namespace Package

variable {p : Package} {f : Field} {slot : Slot} {archs : List ArchPriority} {t : Text}

/-! ### The values of a record -/

/-- A list of configuration files can be held: its words have no blank and so no line end. -/
theorem check_conffilesText {cs : List Conffile} (h : ∀ c ∈ cs, c.path.IsWord ∧ c.md5sum.IsWord) :
    Unwritable.check (conffilesText cs) = .ok () := by
  have hline : ∀ line ∈ cs.map (fun c => ' ' :: c.text), ∀ c ∈ line, isLineEnd c = false := by
    intro line hl c hc
    obtain ⟨conffile, hmem, rfl⟩ := List.mem_map.1 hl
    obtain ⟨hpath, hmd5sum⟩ := h conffile hmem
    -- The line is a space, a word, a space and a word.
    have hblank : c = ' ' ∨ isBlank c = false := by
      simp only [Conffile.text, List.mem_cons, List.mem_append] at hc
      obtain rfl | hc | rfl | hc := hc
      · exact .inl rfl
      · exact .inr (hpath.not_isBlank c hc)
      · exact .inl rfl
      · exact .inr (hmd5sum.not_isBlank c hc)
    obtain rfl | hblank := hblank
    · rfl
    · rw [Bool.eq_false_iff]
      intro hend
      rw [isBlank_of_isLineEnd hend] at hblank
      cases hblank
  have hbody : ∀ line ∈ cs.map (fun c => ' ' :: c.text), Text.IsBody line := by
    intro line hl
    obtain ⟨conffile, -, rfl⟩ := List.mem_map.1 hl
    exact ⟨rfl, fun hn => absurd (hline _ hl '\n' hn) (by decide)⟩
  rw [conffilesText_eq, Unwritable.check_join_eq_ok_iff List.not_mem_nil hbody]
  intro _
  apply Text.indentsBreaks_of_forall
  intro c hc hend
  -- a line end is one of the newlines between the lines, since no line has one
  obtain hc | ⟨line, hl, hc⟩ := Text.mem_join hc
  · exact List.mem_singleton.1 hc
  · obtain rfl | hl := List.mem_cons.1 hl
    · cases hc
    · rw [hline line hl c hc] at hend
      cases hend

/-- The value of a field on one line has no newline. -/
theorem newline_not_mem_slotText? (hnormal : p.SlotNormal archs slot)
    (ht : p.slotText? slot = some (.ok t)) : '\n' ∉ t := by
  cases slot with
  | text a =>
    obtain ⟨u, hu, hok⟩ := Option.map_eq_some_iff.1 ht
    obtain rfl := Except.ok.inj hok
    exact (hnormal u hu).not_newline
  | number a =>
    obtain ⟨n, hn, hok⟩ := Option.map_eq_some_iff.1 ht
    obtain ⟨k, rfl⟩ := Int.eq_ofNat_of_zero_le (hnormal n hn)
    obtain ⟨-, rfl⟩ := Numeral.signed?_eq_ok_iff.1 hok
    rw [Numeral.signed_natCast]
    exact (Numeral.isWord_decimal k).isValue.not_newline
  | switch a =>
    simp only [slotText?] at ht
    split at ht
    · obtain rfl := Except.ok.inj (Option.some.inj ht)
      decide
    · cases ht
  | relation a =>
    simp only [slotText?] at ht
    split at ht
    · cases ht
    · obtain rfl := Except.ok.inj (Option.some.inj ht)
      exact Text.not_mem_join (by decide) fun u hu => (hnormal u hu).2
  | architecture =>
    obtain ⟨u, hu, hok⟩ := Option.map_eq_some_iff.1 ht
    obtain rfl := Except.ok.inj hok
    simp only [SlotNormal, hu] at hnormal
    exact hnormal.1.not_newline
  | version =>
    -- the parts of a version come from a value, and the text is put together from them
    obtain ⟨v, hv, hok⟩ := Option.map_eq_some_iff.1 ht
    obtain ⟨-, rfl⟩ := Version.fits_of_text? hok
    simp only [SlotNormal, hv] at hnormal
    obtain ⟨value, hvalue, hread⟩ := hnormal
    exact hread.newline_not_mem_text hvalue
  | status =>
    obtain ⟨s, hs, hok⟩ := Option.map_eq_some_iff.1 ht
    obtain rfl := Except.ok.inj hok
    exact s.newline_not_mem_text

/-- The numbers of a record are short enough to be written. -/
def NumbersFit (p : Package) : Prop := ∀ a n, p.getNumber a = some n → Numeral.fits n = true

theorem exists_signed?_iff {n : Int} : (∃ t, Numeral.signed? n = .ok t) ↔ Numeral.fits n = true := by
  simp [Numeral.signed?_eq_ok_iff]

/-- The text of every field that is set is there exactly if the numbers are short enough. -/
theorem forall_fieldText?_iff (hepoch : Numeral.fits p.epoch = true) :
    (∀ f text?, p.fieldText? f = some text? → ∃ t, text? = .ok t) ↔ p.NumbersFit := by
  constructor
  · intro h a n hn
    -- A number that is set is written by its field, so its text has to be there.
    have hfield : p.fieldText? a.field = some (Numeral.signed? n) := by
      have hslot : p.slotText? (.number a) = some (Numeral.signed? n) := congrArg (Option.map _) hn
      cases a <;> exact hslot
    exact exists_signed?_iff.1 (h _ _ hfield)
  · intro h f text? ht
    unfold fieldText? at ht
    split at ht
    · rename_i slot _
      cases slot with
      | text a | architecture | status =>
        obtain ⟨u, -, rfl⟩ := Option.map_eq_some_iff.1 ht
        exact ⟨_, rfl⟩
      | number a =>
        obtain ⟨n, hn, rfl⟩ := Option.map_eq_some_iff.1 ht
        exact exists_signed?_iff.2 (h a n hn)
      | switch a | relation a =>
        simp only [slotText?] at ht
        split at ht <;> cases ht
        exact ⟨_, rfl⟩
      | version =>
        obtain ⟨v, hv, rfl⟩ := Option.map_eq_some_iff.1 ht
        obtain ⟨base, -, rfl⟩ := Option.map_eq_some_iff.1 hv
        -- Of a version only the epoch could be too long.
        simp only [Version.text?, Numeral.signed?_of_fits hepoch]
        exact ⟨_, rfl⟩
    · obtain ⟨u, -, rfl⟩ := Option.map_eq_some_iff.1 ht
      exact ⟨_, rfl⟩
    · split at ht <;> cases ht
      exact ⟨_, rfl⟩

theorem mem_written (f : Field) : f ∈ Field.written := by
  cases f <;> decide

theorem mem_fieldTexts {text? : Except Error Text} :
    (f, text?) ∈ p.fieldTexts ↔ p.fieldText? f = some text? := by
  simp [fieldTexts, mem_written]

/-- Writing a record succeeds if its version and every field that is set can be written. -/
theorem exists_mapFields_eq_ok_iff {α : Type} {write : Field → Text → Except Error α} :
    (∃ xs, p.mapFields write = .ok xs) ↔
      (∃ version, p.fullVersionText? = .ok version) ∧
        ∀ f text?, p.fieldText? f = some text? → ∃ t x, text? = .ok t ∧ write f t = .ok x := by
  have hfields : (∃ xs, (p.fieldTexts.mapM fun entry => entry.2.bind (write entry.1)) = .ok xs) ↔
      ∀ f text?, p.fieldText? f = some text? → ∃ t x, text? = .ok t ∧ write f t = .ok x := by
    rw [Except.exists_mapM_eq_ok_iff]
    constructor
    · intro h f text? ht
      obtain ⟨x, hx⟩ := h (f, text?) (mem_fieldTexts.2 ht)
      obtain ⟨t, rfl, hwrite⟩ := Except.bind_eq_ok_iff.1 hx
      exact ⟨t, x, rfl, hwrite⟩
    · rintro h ⟨f, text?⟩ hmem
      obtain ⟨t, x, rfl, hwrite⟩ := h f text? (mem_fieldTexts.1 hmem)
      exact ⟨x, hwrite⟩
  rw [← hfields]
  constructor
  · rintro ⟨xs, h⟩
    obtain ⟨version, hversion, hxs⟩ := Except.bind_eq_ok_iff.1 h
    exact ⟨⟨version, hversion⟩, xs, hxs⟩
  · rintro ⟨⟨version, hversion⟩, xs, hxs⟩
    exact ⟨xs, Except.bind_eq_ok_iff.2 ⟨version, hversion, hxs⟩⟩

/-! ### Writing a record -/

/-- **When the fields of a record can be listed**: its numbers are short enough. -/
theorem exists_fields?_iff (hepoch : Numeral.fits p.epoch = true) :
    (∃ fs, p.fields? = .ok fs) ↔ p.NumbersFit := by
  unfold fields?
  rw [exists_mapFields_eq_ok_iff, and_iff_right (exists_fullVersionText?_of_fits hepoch),
    ← forall_fieldText?_iff hepoch]
  simp

theorem exists_fieldLines?_iff : (∃ u, fieldLines? f t = .ok u) ↔ Unwritable.check t = .ok () := by
  unfold fieldLines?
  cases Unwritable.check t <;> simp

variable {mask : FieldSet}

/-- **What a paragraph asks of a description**: in one of several lines, the line ends other than
newlines are indented. -/
theorem check_description_iff (hnormal : p.Normal archs mask) {d : Text} (hd : p.description = some d) :
    Unwritable.check d = .ok () ↔ ('\n' ∈ d → d.IndentsBreaks) := by
  obtain ⟨summary, body, rfl, hsummary, hbody⟩ := hnormal.normalAt .description d hd
  exact Unwritable.check_join_eq_ok_iff hsummary.not_newline hbody

/-- The values of all other fields can be held. -/
theorem check_of_ne_description (hnormal : p.Normal archs mask) (hf : f ≠ .description)
    (ht : p.fieldText? f = some (.ok t)) : Unwritable.check t = .ok () := by
  have hform := hnormal.normalAt f
  unfold fieldText? at ht
  unfold NormalAt at hform
  cases hk : f.kind with
  | single slot =>
    rw [hk] at ht hform
    exact Unwritable.check_eq_ok_iff.2 (.inl (newline_not_mem_slotText? hform ht))
  | description => exact absurd (Field.eq_description hk) hf
  | conffiles =>
    rw [hk] at ht hform
    simp only at ht
    split at ht
    · cases ht
    · obtain rfl := Except.ok.inj (Option.some.inj ht)
      exact check_conffilesText hform

/-- **When a record can be written as a paragraph**: its numbers are short enough, and in a description of
more than one line the other line ends are indented too. -/
theorem exists_paragraph?_iff (hnormal : p.Normal archs mask) (hepoch : Numeral.fits p.epoch = true) :
    (∃ u, p.paragraph? = .ok u) ↔
      p.NumbersFit ∧ ∀ d, p.description = some d → '\n' ∈ d → d.IndentsBreaks := by
  have hparagraph : (∃ u, p.paragraph? = .ok u) ↔ ∃ xs, p.mapFields fieldLines? = .ok xs := by
    simp [paragraph?, Except.map_eq_ok_iff]
  rw [hparagraph, exists_mapFields_eq_ok_iff, and_iff_right (exists_fullVersionText?_of_fits hepoch),
    ← forall_fieldText?_iff hepoch]
  constructor
  · intro h
    refine ⟨fun f text? ht => ?_, fun d hd => ?_⟩
    · obtain ⟨t, -, rfl, -⟩ := h f text? ht
      exact ⟨t, rfl⟩
    · -- The description is one of the fields that are written, and it was checked.
      have htext : p.fieldText? .description = some (.ok d) := by
        show p.description.map Except.ok = _
        rw [hd]
        rfl
      obtain ⟨t, u, hok, hu⟩ := h .description (.ok d) htext
      obtain rfl := Except.ok.inj hok
      exact (check_description_iff hnormal hd).1 (exists_fieldLines?_iff.1 ⟨u, hu⟩)
  · rintro ⟨htexts, hbreaks⟩ f text? ht
    obtain ⟨t, rfl⟩ := htexts f text? ht
    -- Only a description can fail the check, and it does not by assumption.
    have hcheck : Unwritable.check t = .ok () := by
      by_cases hf : f = .description
      · subst hf
        obtain ⟨d, hd, hok⟩ := Option.map_eq_some_iff.1 ht
        obtain rfl := Except.ok.inj hok
        exact (check_description_iff hnormal hd).2 (hbreaks d hd)
      · exact check_of_ne_description hnormal hf ht
    obtain ⟨u, hu⟩ := exists_fieldLines?_iff.2 hcheck
    exact ⟨t, u, rfl, hu⟩

end Package

/-! ### The records of a text -/

/-- An epoch that was read can be written. -/
theorem fits_epoch_of_readText {m : FieldSet} {c : Config} {t : Text} {p : Package}
    (h : p ∈ (readText m c t).packages) : Numeral.fits p.epoch = true := by
  rw [show (readText m c t).packages = (readText m c t).harvest.packages from rfl] at h
  cases hc : Source.isCountable c.lineLimit with
  | false => simp [harvest_readText_of_not_countable hc] at h
  | true =>
    rw [harvest_readText hc] at h
    have hstart : Numeral.fits (Session.start {} m c).package.epoch = true := Numeral.fits_zero
    -- That an epoch is short enough is an invariant of the session that read the record.
    obtain ⟨s, hs, rfl, -⟩ := Session.of_mem_harvest (I := fun s => Numeral.fits s.package.epoch = true)
      (fun _ _ _ _ _ hs hstep => hstep.fits hs) hstart hstart h
    rw [Session.finish_package, Session.epoch_close]
    exact hs

/-- **Which records of a text can be written.** The fields of a record can be listed exactly if its numbers
are short enough to be written in decimal. It can be written as a paragraph exactly if, moreover, a
description of more than one line has no other line end than the newline, or has every other line end
followed by a blank that ends no line. -/
theorem fields?_and_paragraph?_eq_ok_iff {m : FieldSet} {c : Config} {t : Text} {p : Package}
    (h : p ∈ (readText m c t).packages) :
    ((∃ fs, p.fields? = .ok fs) ↔ ∀ a n, p.getNumber a = some n → Numeral.fits n = true) ∧
      ((∃ u, p.paragraph? = .ok u) ↔
        (∀ a n, p.getNumber a = some n → Numeral.fits n = true) ∧
          ∀ d, p.description = some d → '\n' ∈ d → d.IndentsBreaks) :=
  ⟨Package.exists_fields?_iff (fits_epoch_of_readText h),
    Package.exists_paragraph?_iff (normal_of_readText h).1 (fits_epoch_of_readText h)⟩

/-- A text with one record, whose description has a line separator in its second line. -/
def separatedText : Text := "Package: a\nDescription: x\n y\u2028z\n".toList

def separatedPackage : Package :=
  { name := some ['a'], description := some "x\n y\u2028z".toList }

/-- A text with one record, whose size has 3600 hexadecimal digits. -/
def hexadecimalText : Text :=
  "Package: a\nSize: 0x".toList ++ List.replicate 3600 'f' ++ ['\n']

def hexadecimalPackage : Package := { name := some ['a'], size := some (16 ^ 3600 - 1) }

theorem mem_packages_of_packages? {m : FieldSet} {c : Config} {t : Text} {p : Package}
    {ps : List Package} (h : (readText m c t).packages? = .ok ps) (hp : p ∈ ps) :
    p ∈ (readText m c t).packages := by
  have hpackages := congrArg Harvest.packages (Trace.packages?_eq_ok.1 h)
  rwa [show (readText m c t).packages = _ from hpackages]

theorem mem_packages_separatedText :
    separatedPackage ∈ (readText .full {} separatedText).packages := by
  have hread : (readText .full {} separatedText).packages? = .ok [separatedPackage] :=
    readText_eq_ok_iff.2 ⟨by decide, by decide +kernel, by decide +kernel⟩
  exact mem_packages_of_packages? hread List.mem_cons_self

theorem mem_packages_hexadecimalText :
    hexadecimalPackage ∈ (readText .full {} hexadecimalText).packages := by
  have hread : (readText .full {} hexadecimalText).packages? = .ok [hexadecimalPackage] :=
    readText_eq_ok_iff.2 ⟨by decide, by decide +kernel, by decide +kernel⟩
  exact mem_packages_of_packages? hread List.mem_cons_self

/-- The fields of a record with a line separator can be listed, and no paragraph can hold it. -/
theorem fields?_and_paragraph?_separator :
    (∃ fs, separatedPackage.fields? = .ok fs) ∧ ¬∃ u, separatedPackage.paragraph? = .ok u := by
  obtain ⟨hfields, hparagraph⟩ := fields?_and_paragraph?_eq_ok_iff mem_packages_separatedText
  refine ⟨hfields.2 ?_, fun h => ?_⟩
  · intro a n hn
    cases a <;> cases hn
  · exact absurd ((hparagraph.1 h).2 _ rfl (by decide)) (by decide +kernel)

/-- Not every record of a text has fields that can be listed, and not every one can be written as a
paragraph. -/
theorem not_fields?_and_not_paragraph? :
    (¬∀ (m : FieldSet) (c : Config) (t : Text), ∀ p ∈ (readText m c t).packages,
      ∃ fs, p.fields? = .ok fs) ∧
    ¬∀ (m : FieldSet) (c : Config) (t : Text), ∀ p ∈ (readText m c t).packages,
      ∃ u, p.paragraph? = .ok u := by
  constructor
  · intro h
    obtain ⟨fs, hfs⟩ := h .full {} hexadecimalText hexadecimalPackage mem_packages_hexadecimalText
    -- The size has more than 4300 digits in decimal.
    have hnone : hexadecimalPackage.fields?.toOption = none := by decide +kernel
    rw [hfs] at hnone
    cases hnone
  · intro h
    obtain ⟨u, hu⟩ := h .full {} separatedText separatedPackage mem_packages_separatedText
    have hnone : separatedPackage.paragraph?.toOption = none := by decide +kernel
    rw [hu] at hnone
    cases hnone

end ControlFile

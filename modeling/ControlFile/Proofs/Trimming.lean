import ControlFile.Text.Basic
import Mathlib.Data.List.DropRight

/-!
# Values between blanks and separators

The value of a line stands between blanks, and a list within it between separators. What is left after
trimming and splitting is in a form that trimming and splitting do not change again, and this is what
makes a written value readable.

* A text is `Trimmed` if no blank stands at its ends. Trimming gives such a text and leaves such a text
  alone (`Text.trimmed_trim`, `Text.Trimmed.trim_eq`).
* The items of a list are trimmed, not empty, and free of the separator (`Text.mem_items`). Joined with
  the separator, and with blanks after it or not, such items are read back (`Text.items_join`). For any
  texts that are joined, the items are those of each of them (`Text.items_join_eq_flatMap`), since blanks
  around a list are trimmed away with those around its pieces (`Text.items_trim`).
* Words are not empty and have no blank in them (`Text.mem_words`), and joined with spaces they are read
  back (`Text.words_join`).
-/

namespace ControlFile.Text

/-! ### Trimming -/

/-- A text without a blank at either end. -/
structure Trimmed (t : Text) : Prop where
  head : ∀ c, t.head? = some c → isBlank c = false
  last : ∀ c, t.getLast? = some c → isBlank c = false

/-- No blank stands at the front, so none is taken away there. -/
theorem trimStart_eq_self {t : Text} (h : ∀ c, t.head? = some c → isBlank c = false) :
    trimStart t = t := by
  cases t with
  | nil => rfl
  | cons c t => exact trimStart_cons_of_not_isBlank t (h c rfl)

theorem trimEnd_eq_self {t : Text} (h : ∀ c, t.getLast? = some c → isBlank c = false) :
    trimEnd t = t := by
  refine List.rdropWhile_eq_self_iff.2 fun hne => ?_
  simp [h _ (List.getLast?_eq_some_getLast hne)]

/-- A trimmed text is left alone, so that a second trimming changes nothing. -/
theorem Trimmed.trim_eq {t : Text} (h : t.Trimmed) : trim t = t := by
  rw [trim, trimStart_eq_self h.head, trimEnd_eq_self h.last]

/-- Trimming leaves a trimmed text, whatever it is given. -/
theorem trimmed_trim (t : Text) : (trim t).Trimmed := by
  constructor
  · -- What is left at the end of trimming is a front part of what was left in its middle.
    intro c hc
    obtain ⟨rest, hrest⟩ := List.rdropWhile_prefix isBlank (l := t.trimStart)
    have hhead : t.trimStart.head? = some c := by
      rw [← hrest, List.head?_append]
      exact Option.or_eq_some_iff.2 (.inl hc)
    have := List.head?_dropWhile_not isBlank t
    rw [show t.dropWhile isBlank = t.trimStart from rfl, hhead] at this
    simpa using this
  · intro c hc
    -- Trimming at the end is trimming the reversed text at its front.
    have := List.head?_dropWhile_not isBlank t.trimStart.reverse
    rw [trim, trimEnd, List.getLast?_reverse] at hc
    rw [hc] at this
    simpa using this

theorem trimmed_nil : Trimmed [] := ⟨by simp, by simp⟩

/-- Trimming invents no character and moves none. -/
theorem trim_sublist (t : Text) : (trim t).Sublist t :=
  (List.rdropWhile_prefix isBlank (l := t.trimStart)).sublist.trans (List.dropWhile_sublist isBlank)

theorem mem_of_mem_trim {t : Text} {c : Char} (h : c ∈ trim t) : c ∈ t := (trim_sublist t).mem h

/-- Blanks before a text are not seen after trimming. -/
theorem trim_append_of_allBlank {gap : Text} (h : gap.allBlank = true) (t : Text) :
    trim (gap ++ t) = trim t := by
  rw [trim, trimStart, List.dropWhile_append_of_pos (by simpa [allBlank] using h)]
  rfl

theorem trim_cons_of_isBlank {c : Char} (h : isBlank c = true) (t : Text) :
    trim (c :: t) = trim t := by
  have hgap : allBlank [c] = true := by simp [allBlank, h]
  exact trim_append_of_allBlank hgap t

/-- Trimming takes blanks away at both ends, and nothing else. -/
theorem exists_eq_append_trim (t : Text) :
    ∃ lead trail : Text, lead.allBlank = true ∧ trail.allBlank = true ∧ t = lead ++ t.trim ++ trail := by
  refine ⟨t.takeWhile isBlank, (t.trimStart.reverse.takeWhile isBlank).reverse, ?_, ?_, ?_⟩
  · exact List.all_takeWhile
  · rw [allBlank, List.all_reverse]
    exact List.all_takeWhile
  · -- The blanks at the end are found from behind, in what is left after trimming at the front.
    have hend : t.trimStart.trimEnd ++ (t.trimStart.reverse.takeWhile isBlank).reverse = t.trimStart := by
      rw [trimEnd, ← List.reverse_append, List.takeWhile_append_dropWhile, List.reverse_reverse]
    rw [List.append_assoc, trim, hend]
    exact List.takeWhile_append_dropWhile.symm

/-- Blanks that are put around a trimmed text are taken away again. -/
theorem Trimmed.trim_append_append {lead trail t : Text} (ht : t.Trimmed)
    (hlead : lead.allBlank = true) (htrail : trail.allBlank = true) :
    trim (lead ++ t ++ trail) = t := by
  rw [List.append_assoc, trim_append_of_allBlank hlead]
  cases t with
  | nil =>
    -- With nothing between them, all blanks stand at the front and go at once.
    rw [List.nil_append, ← List.append_nil trail, trim_append_of_allBlank htrail]
    rfl
  | cons c t =>
    have hend : ∀ c ∈ trail.reverse, isBlank c = true := by simpa [allBlank] using htrail
    rw [trim, List.cons_append, trimStart_cons_of_not_isBlank _ (ht.head c rfl), ← List.cons_append,
      trimEnd, List.reverse_append, List.dropWhile_append_of_pos hend]
    exact trimEnd_eq_self ht.last

/-- Blanks behind a text are not seen after trimming. -/
theorem trim_append_of_allBlank_right {gap : Text} (h : gap.allBlank = true) (t : Text) :
    trim (t ++ gap) = trim t := by
  -- The new blanks join those that stood at the end before.
  obtain ⟨lead, trail, hlead, htrail, ht⟩ := exists_eq_append_trim t
  have hgaps : allBlank (trail ++ gap) = true := by
    rw [allBlank, List.all_append, Bool.and_eq_true]
    exact ⟨htrail, h⟩
  calc trim (t ++ gap)
    _ = trim (lead ++ t.trim ++ (trail ++ gap)) := by rw [← List.append_assoc, ← ht]
    _ = trim t := (trimmed_trim t).trim_append_append hlead hgaps

/-- A text that begins and ends with trimmed texts is trimmed. -/
theorem Trimmed.append_append {a b : Text} (ha : a.Trimmed) (hb : b.Trimmed) (hane : a ≠ [])
    (hbne : b ≠ []) (mid : Text) : Trimmed (a ++ mid ++ b) := by
  constructor
  · intro c hc
    obtain ⟨x, a, rfl⟩ := List.exists_cons_of_ne_nil hane
    exact ha.head c hc
  · intro c hc
    rw [List.getLast?_append_of_ne_nil _ hbne] at hc
    exact hb.last c hc

/-! ### Joining and splitting -/

@[simp] theorem join_nil (sep : Text) : join sep [] = [] := rfl

@[simp] theorem join_singleton (sep t : Text) : join sep [t] = t := List.intercalate_singleton

@[simp] theorem join_cons_cons (sep t u : Text) (ts : List Text) :
    join sep (t :: u :: ts) = t ++ sep ++ join sep (u :: ts) :=
  List.intercalate_cons_cons

/-- What stands at the front of the first text stands at the front of the joined one. -/
theorem join_append_cons (sep a b : Text) (ts : List Text) :
    join sep ((a ++ b) :: ts) = a ++ join sep (b :: ts) := by
  cases ts with
  | nil => rw [join_singleton, join_singleton]
  | cons t ts => rw [join_cons_cons, join_cons_cons, List.append_assoc, List.append_assoc,
      List.append_assoc]

/-- A character of a joined text comes from the separator or from one of the texts. -/
theorem mem_join {sep : Text} {ts : List Text} {c : Char} (h : c ∈ join sep ts) :
    c ∈ sep ∨ ∃ t ∈ ts, c ∈ t := by
  induction ts with
  | nil => simp at h
  | cons t ts ih =>
    -- The last text has no separator after it, so it is a case of its own.
    cases ts with
    | nil => exact .inr ⟨t, by simp, by simpa using h⟩
    | cons u ts =>
      rw [join_cons_cons, List.mem_append, List.mem_append] at h
      rcases h with (h | h) | h
      · exact .inr ⟨t, List.mem_cons_self, h⟩
      · exact .inl h
      · exact (ih h).imp id fun ⟨v, hv, hc⟩ => ⟨v, List.mem_cons_of_mem t hv, hc⟩

/-- A character that is neither in the separator nor in one of the texts is not in the joined text. -/
theorem not_mem_join {sep : Text} {ts : List Text} {c : Char} (hsep : c ∉ sep) (h : ∀ t ∈ ts, c ∉ t) :
    c ∉ join sep ts := by
  intro hc
  obtain hc | ⟨t, ht, hc⟩ := mem_join hc
  · exact hsep hc
  · exact h t ht hc

/-- Trimmed texts are joined to a trimmed text. -/
theorem trimmed_join {sep : Text} {ts : List Text} (h : ∀ t ∈ ts, t.Trimmed ∧ t ≠ []) :
    (join sep ts).Trimmed ∧ (ts ≠ [] → join sep ts ≠ []) := by
  induction ts with
  | nil => exact ⟨trimmed_nil, by simp⟩
  | cons t ts ih =>
    obtain ⟨ht, hne⟩ := h t List.mem_cons_self
    cases ts with
    | nil => exact ⟨by rwa [join_singleton], by simpa using hne⟩
    | cons u ts =>
      obtain ⟨hrest, hrestne⟩ := ih fun t ht => h t (List.mem_cons_of_mem _ ht)
      rw [join_cons_cons]
      exact ⟨ht.append_append hrest hne (hrestne (by simp)) sep, by simp [hne]⟩

/-- The pieces between separators have none of them in it, and come from the text. -/
theorem mem_splitOnP {p : Char → Bool} {t piece : Text} (h : piece ∈ t.splitOnP p) {c : Char}
    (hc : c ∈ piece) : p c = false ∧ c ∈ t := by
  induction t generalizing piece with
  | nil =>
    rw [List.splitOnP_nil, List.mem_singleton] at h
    simp [h] at hc
  | cons x t ih =>
    obtain ⟨first, more, hsplit⟩ := List.exists_cons_of_ne_nil (List.splitOnP_ne_nil p t)
    -- A separator puts an empty piece before the others, and another character goes to the first.
    rw [List.splitOnP_cons_eq_if_modifyHead, hsplit] at h
    rw [hsplit] at ih
    split at h
    · rcases List.mem_cons.1 h with rfl | h
      · simp at hc
      · exact (ih h hc).imp id (List.mem_cons_of_mem x)
    · rename_i hx
      rcases List.mem_cons.1 h with rfl | h
      · rcases List.mem_cons.1 hc with rfl | hc
        · exact ⟨by simpa using hx, List.mem_cons_self⟩
        · exact (ih List.mem_cons_self hc).imp id (List.mem_cons_of_mem x)
      · exact (ih (List.mem_cons_of_mem first h) hc).imp id (List.mem_cons_of_mem x)

/-! ### Items -/

/-- What stands between the separators of a list: a trimmed text that is not empty and has no separator
in it. -/
structure IsItem (sep : Char) (t : Text) : Prop where
  ne_nil : t ≠ []
  trimmed : t.Trimmed
  not_mem : sep ∉ t

variable {sep : Char}

/-- The items of a list are items, and come from its text. -/
theorem mem_items {t item : Text} (h : item ∈ items sep t) :
    IsItem sep item ∧ ∀ c ∈ item, c ∈ t := by
  obtain ⟨hm, hne⟩ := List.mem_filter.1 h
  obtain ⟨piece, hpiece, rfl⟩ := List.mem_map.1 hm
  rw [List.splitOn_eq_splitOnP] at hpiece
  refine ⟨⟨by simpa using hne, trimmed_trim piece, fun hc => ?_⟩,
    fun c hc => (mem_splitOnP hpiece (mem_of_mem_trim hc)).2⟩
  simpa using (mem_splitOnP hpiece (mem_of_mem_trim hc)).1

/-- A separator ends one list of items and begins another. -/
theorem items_append (s t : Text) : items sep (s ++ sep :: t) = items sep s ++ items sep t := by
  rw [items, List.splitOn_append_cons_self, List.map_append, List.filter_append]
  rfl

/-- A text without a separator is a single piece, and an item unless it is blank. -/
theorem items_of_not_mem {t : Text} (h : sep ∉ t) : items sep t = [t.trim].filter (· ≠ []) := by
  rw [items, List.splitOn_eq_singleton h]
  rfl

theorem items_of_isItem {item : Text} (h : IsItem sep item) : items sep item = [item] := by
  rw [items_of_not_mem h.not_mem]
  simp [h.trimmed.trim_eq, h.ne_nil]

/-- Blanks before a list belong to its first piece, and are trimmed away from it. -/
theorem items_append_of_allBlank_left {gap : Text} (hgap : gap.allBlank = true) (hsep : sep ∉ gap)
    (t : Text) : items sep (gap ++ t) = items sep t := by
  by_cases h : sep ∈ t
  · -- The blanks stand before the first separator, in a piece that is trimmed.
    obtain ⟨first, rest, rfl, hfirst⟩ := List.eq_append_cons_of_mem h
    rw [← List.append_assoc, items_append, items_append, items_of_not_mem hfirst,
      items_of_not_mem (by simp [hsep, hfirst]), trim_append_of_allBlank hgap]
  · rw [items_of_not_mem h, items_of_not_mem (by simp [hsep, h]), trim_append_of_allBlank hgap]

/-- Blanks behind a list belong to its last piece. -/
theorem items_append_of_allBlank_right {gap : Text} (hgap : gap.allBlank = true) (hsep : sep ∉ gap)
    (t : Text) : items sep (t ++ gap) = items sep t := by
  by_cases h : sep ∈ t
  · -- Only the last piece is changed. It is reached by a recursion over the separators, since a list is
    -- cut at its first one.
    obtain ⟨first, rest, ht, -⟩ := List.eq_append_cons_of_mem h
    rw [ht, List.append_assoc, List.cons_append, items_append, items_append,
      items_append_of_allBlank_right hgap hsep rest]
  · rw [items_of_not_mem h, items_of_not_mem (by simp [hsep, h]), trim_append_of_allBlank_right hgap]
termination_by t.length
decreasing_by
  rw [ht, List.length_append, List.length_cons]
  omega

/-- The items of a list are those of what is left after trimming. -/
theorem items_trim (hsep : isBlank sep = false) (t : Text) : items sep t.trim = items sep t := by
  obtain ⟨lead, trail, hlead, htrail, ht⟩ := exists_eq_append_trim t
  -- A blank is no separator, so the text is cut at the same places.
  have hnot : ∀ gap : Text, gap.allBlank = true → sep ∉ gap := by
    intro gap hgap hmem
    have hblank := List.all_eq_true.1 hgap sep hmem
    rw [hsep] at hblank
    cases hblank
  calc items sep t.trim
    _ = items sep (lead ++ t.trim) := (items_append_of_allBlank_left hlead (hnot lead hlead) _).symm
    _ = items sep (lead ++ t.trim ++ trail) :=
      (items_append_of_allBlank_right htrail (hnot trail htrail) _).symm
    _ = items sep t := congrArg (items sep) ht.symm

/-- **Lists that are joined are read one after the other**, with blanks after the separators or
without. -/
theorem items_join_eq_flatMap {gap : Text} (hgap : gap.allBlank = true) (hsep : sep ∉ gap)
    (ts : List Text) : items sep (join (sep :: gap) ts) = ts.flatMap (items sep) := by
  induction ts with
  | nil => rfl
  | cons t ts ih =>
    cases ts with
    | nil => rw [join_singleton, List.flatMap_singleton]
    | cons u ts =>
      rw [join_cons_cons, List.append_assoc, List.cons_append, items_append,
        items_append_of_allBlank_left hgap hsep, ih]
      rfl

/-- **A written list is read back.** -/
theorem items_join {gap : Text} (hgap : gap.allBlank = true) (hsep : sep ∉ gap) {ts : List Text}
    (h : ∀ t ∈ ts, IsItem sep t) : items sep (join (sep :: gap) ts) = ts := by
  have hsingle : ∀ t ∈ ts, items sep t = [t] := fun t ht => items_of_isItem (h t ht)
  rw [items_join_eq_flatMap hgap hsep, List.flatMap_congr hsingle, List.flatMap_singleton']

/-! ### Words -/

/-- A text that is not empty and has no blank in it. -/
structure IsWord (t : Text) : Prop where
  ne_nil : t ≠ []
  not_isBlank : ∀ c ∈ t, isBlank c = false

theorem isWord_of_any {t : Text} (hne : t ≠ []) (h : t.any isBlank = false) : t.IsWord :=
  ⟨hne, fun c hc => by simpa using List.any_eq_false.1 h c hc⟩

/-- A word has no blank at all, and so none at its ends. -/
theorem IsWord.trimmed {t : Text} (h : t.IsWord) : t.Trimmed :=
  ⟨fun c hc => h.not_isBlank c (List.mem_of_mem_head? hc),
    fun c hc => h.not_isBlank c (List.mem_of_mem_getLast? hc)⟩

/-- The words of a text are words, and come from it. -/
theorem mem_words {t word : Text} (h : word ∈ words t) : word.IsWord ∧ ∀ c ∈ word, c ∈ t := by
  obtain ⟨hm, hne⟩ := List.mem_filter.1 h
  exact ⟨⟨by simpa using hne, fun c hc => (mem_splitOnP hm hc).1⟩,
    fun c hc => (mem_splitOnP hm hc).2⟩

/-- A blank ends one list of words and begins another. -/
theorem words_append {c : Char} (h : isBlank c = true) (s t : Text) :
    words (s ++ c :: t) = words s ++ words t := by
  rw [words, List.splitOnP_append_cons s t h, List.filter_append]
  rfl

theorem words_cons_of_isBlank {c : Char} (h : isBlank c = true) (t : Text) :
    words (c :: t) = words t :=
  words_append h [] t

/-- Blanks before a text hold no word. -/
theorem words_append_of_allBlank_left {gap : Text} (h : gap.allBlank = true) (t : Text) :
    words (gap ++ t) = words t := by
  induction gap with
  | nil => rfl
  | cons c gap ih =>
    rw [allBlank, List.all_cons, Bool.and_eq_true] at h
    rw [List.cons_append, words_cons_of_isBlank h.1, ih h.2]

theorem words_append_of_allBlank_right {gap : Text} (h : gap.allBlank = true) (t : Text) :
    words (t ++ gap) = words t := by
  cases gap with
  | nil => rw [List.append_nil]
  | cons c gap =>
    rw [allBlank, List.all_cons, Bool.and_eq_true] at h
    -- The first blank ends the last word, and the others stand before nothing.
    have hgap : words gap = [] := by
      rw [← List.append_nil gap, words_append_of_allBlank_left h.2]
      rfl
    rw [words_append h.1, hgap, List.append_nil]

/-- The words of a text are those of what is left after trimming. -/
theorem words_trim (t : Text) : words t.trim = words t := by
  obtain ⟨lead, trail, hlead, htrail, ht⟩ := exists_eq_append_trim t
  calc words t.trim
    _ = words (lead ++ t.trim) := (words_append_of_allBlank_left hlead _).symm
    _ = words (lead ++ t.trim ++ trail) := (words_append_of_allBlank_right htrail _).symm
    _ = words t := congrArg words ht.symm

/-- A word that stands alone is read as itself. -/
theorem words_of_isWord {t : Text} (h : t.IsWord) : words t = [t] := by
  rw [words, List.splitOnP_eq_singleton h.not_isBlank]
  simp [h.ne_nil]

/-- **Written words are read back.** -/
theorem words_join {ts : List Text} (h : ∀ t ∈ ts, t.IsWord) : words (join [' '] ts) = ts := by
  induction ts with
  | nil => rfl
  | cons t ts ih =>
    have ht := words_of_isWord (h t List.mem_cons_self)
    cases ts with
    | nil => rw [join_singleton, ht]
    | cons u ts =>
      rw [join_cons_cons, List.append_assoc, List.singleton_append, words_append isBlank_space, ht,
        ih fun t ht => h t (List.mem_cons_of_mem _ ht)]
      rfl

end ControlFile.Text

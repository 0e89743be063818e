import ControlFile.Source

/-!
# Lines of a text

A source takes a text line by line, from the front. `Text.rows` is the whole row of lines at once:
the pieces between the newlines, without the empty piece after a final newline. The recursion of the
reader is recovered by three equations (`Text.rows_nil`, `Text.rows_append_newline`,
`Text.rows_of_not_mem`) and by the induction `Text.rows_induction` that goes with them.

A text that ends with a newline can be put before any other, and the rows are put one behind the
other (`Text.rows_append`), and lines that are written with a newline after each are read back
(`Text.rows_ofRows_append`). Two newlines after a text that may end anywhere add empty lines and change
none of its own (`Text.rows_append_blank`).
-/

namespace ControlFile

namespace Text

/-- The lines of a text: the pieces between its newlines, without the empty piece after a final
newline. -/
def rows (t : Text) : List Text :=
  if (t.splitOn '\n').getLast? = some [] then (t.splitOn '\n').dropLast else t.splitOn '\n'

@[simp] theorem rows_nil : rows [] = [] := rfl

/-- A line with a newline after it is the first row, whatever follows. -/
theorem rows_append_newline {line : Text} (h : '\n' ∉ line) (t : Text) :
    rows (line ++ '\n' :: t) = line :: rows t := by
  -- The rest has a piece of its own, so the piece that may be left out is the last of the rest.
  have hne : t.splitOn '\n' ≠ [] := List.splitOn_ne_nil '\n' t
  unfold rows
  rw [List.splitOn_append_cons_self_of_not_mem h, List.getLast?_cons_of_ne_nil hne,
    List.dropLast_cons_of_ne_nil hne]
  split <;> rfl

/-- What is left without a newline is one last row. -/
theorem rows_of_not_mem {t : Text} (h : '\n' ∉ t) (hne : t ≠ []) : rows t = [t] := by
  unfold rows
  rw [List.splitOn_eq_singleton h, if_neg (by simpa using hne)]

/-- **Induction on the lines of a text.** A text is empty, or a last line without a newline, or a
line with a newline in front of a text. -/
@[elab_as_elim]
theorem rows_induction {motive : Text → Prop} (nil : motive [])
    (last : ∀ t : Text, '\n' ∉ t → t ≠ [] → motive t)
    (line : ∀ l t : Text, '\n' ∉ l → motive t → motive (l ++ '\n' :: t)) (t : Text) :
    motive t := by
  by_cases hn : '\n' ∈ t
  · -- The text is cut at its first newline, so the line has none and the rest is shorter.
    obtain ⟨l, rest, ht, hl⟩ := List.eq_append_cons_of_mem hn
    exact ht ▸ line l rest hl (rows_induction nil last line rest)
  · by_cases ht : t = []
    · exact ht ▸ nil
    · exact last t hn ht
termination_by t.length
decreasing_by
  rw [ht, List.length_append, List.length_cons]
  omega

theorem rows_eq_nil_iff {t : Text} : rows t = [] ↔ t = [] := by
  induction t using rows_induction with
  | nil => simp
  | last t hn hne => simp [rows_of_not_mem hn hne, hne]
  | line l t hn ih => simp [rows_append_newline hn]

/-- The first row of a text is all of it, or has a newline after it and the other rows behind that. -/
theorem cases_rows {t line : Text} {more : List Text} (h : t.rows = line :: more) :
    '\n' ∉ line ∧
      (t = line ∧ more = [] ∨ ∃ rest : Text, t = line ++ '\n' :: rest ∧ rest.rows = more) := by
  cases t using rows_induction with
  | nil => cases h
  | last t hn hne =>
    rw [rows_of_not_mem hn hne] at h
    obtain ⟨rfl, hmore⟩ := List.cons.inj h
    exact ⟨hn, .inl ⟨rfl, hmore.symm⟩⟩
  | line l t hn _ =>
    rw [rows_append_newline hn] at h
    obtain ⟨rfl, hmore⟩ := List.cons.inj h
    exact ⟨hn, .inr ⟨t, rfl, hmore⟩⟩

/-- No line of a text has a newline in it. -/
theorem not_mem_of_mem_rows {t line : Text} (h : line ∈ rows t) : '\n' ∉ line := by
  induction t using rows_induction with
  | nil => simp at h
  | last t hn ht =>
    rw [rows_of_not_mem hn ht, List.mem_singleton] at h
    exact h ▸ hn
  | line l t hl ih =>
    rw [rows_append_newline hl] at h
    rcases List.mem_cons.mp h with rfl | h
    · exact hl
    · exact ih h

/-- **Lines of a joined text.** Where the first text ends with a newline, its lines are followed by
those of the second. -/
theorem rows_append (s t : Text) : rows (s ++ '\n' :: t) = rows (s ++ ['\n']) ++ rows t := by
  induction s using rows_induction with
  | nil => exact rows_append_newline List.not_mem_nil t
  | last s hs _ => rw [rows_append_newline hs, rows_append_newline hs]; rfl
  | line l s hl ih =>
    rw [List.append_assoc, List.cons_append, rows_append_newline hl, ih, List.append_assoc,
      List.cons_append, rows_append_newline hl, List.cons_append]

/-- The text of these lines, each with a newline after it. -/
def ofRows (lines : List Text) : Text := lines.flatMap (· ++ ['\n'])

/-- Lines that are written before a text are read before its own lines. -/
theorem rows_ofRows_append {lines : List Text} (h : ∀ line ∈ lines, '\n' ∉ line) (t : Text) :
    rows (ofRows lines ++ t) = lines ++ rows t := by
  induction lines with
  | nil => rfl
  | cons line lines ih =>
    rw [ofRows, List.flatMap_cons, List.append_assoc, List.append_assoc, List.singleton_append,
      rows_append_newline (h line List.mem_cons_self)]
    -- The written lines are folded up again, so that the induction fits.
    rw [← ofRows, ih fun l hl => h l (List.mem_cons_of_mem line hl), List.cons_append]

/-- **Lines before an empty line.** Whatever a text ends with, two newlines after it add one or two
empty lines and change none. -/
theorem rows_append_blank (t : Text) :
    ∃ n, rows (t ++ ['\n', '\n']) = rows t ++ List.replicate (n + 1) [] := by
  induction t using rows_induction with
  | nil => exact ⟨1, rfl⟩
  | last t ht hne =>
    -- The first newline ends the last line, and only the second one is an empty line.
    refine ⟨0, ?_⟩
    rw [rows_append_newline ht, rows_of_not_mem ht hne]
    rfl
  | line l t hl ih =>
    obtain ⟨n, ih⟩ := ih
    refine ⟨n, ?_⟩
    rw [List.append_assoc, List.cons_append, rows_append_newline hl, ih, rows_append_newline hl]
    rfl

end Text

/-! ### One step of a reader -/

namespace Source

/-- A reader stops at the first newline and keeps what is behind it. -/
theorem splitLine_append_newline {line : Text} (h : '\n' ∉ line) (t : Text) :
    splitLine (line ++ '\n' :: t) = (line, some t) := by
  rw [splitLine, Text.cut?_append_cons t h]

theorem splitLine_of_not_mem {t : Text} (h : '\n' ∉ t) : splitLine t = (t, none) := by
  rw [splitLine, Text.cut?_eq_none h]

/-- A reader cuts off the first row. -/
theorem exists_splitLine_of_rows {t line : Text} {more : List Text} (h : t.rows = line :: more) :
    ∃ rest, splitLine t = (line, rest) := by
  obtain ⟨hn, ⟨rfl, -⟩ | ⟨rest, rfl, -⟩⟩ := Text.cases_rows h
  · exact ⟨none, splitLine_of_not_mem hn⟩
  · exact ⟨some rest, splitLine_append_newline hn rest⟩

end Source

end ControlFile

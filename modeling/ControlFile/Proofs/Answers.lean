import ControlFile.Proofs.Delivery
import ControlFile.Proofs.Trimming
import Mathlib.Algebra.Group.Nat.Defs

/-!
# The answers of a source

A source can be asked any number of times, also after it has said that it is done or that it has failed.
`Source.answers` are its first answers, each with what it logs and with the source after it.

A text without a fault is answered with its rows, numbered from one, and with nothing more
(`Source.answers_of_within`), unless one of them is over the limit. That row is told of under its own
number, and the source stays as it is from then on (`Source.answers_of_long`). Both are said of a source
that may have given lines before, since this is what a source is after each of its answers. For a new
source they are put together in `Source.answers_ofStream`.
-/

namespace ControlFile

namespace Text

/-- A text that does not end in the middle of a line. -/
def IsTerminated (t : Text) : Prop := t = [] ∨ t.getLast? = some '\n'

instance (t : Text) : Decidable t.IsTerminated := inferInstanceAs (Decidable (_ ∨ _))

theorem getLast?_append_newline (l : Text) {t : Text} (hne : t ≠ []) :
    (l ++ '\n' :: t).getLast? = t.getLast? := by
  rw [List.getLast?_append_of_ne_nil _ (by simp), List.getLast?_cons_of_ne_nil hne]

theorem isTerminated_append_newline (l t : Text) :
    IsTerminated (l ++ '\n' :: t) ↔ t.IsTerminated := by
  unfold IsTerminated
  by_cases hne : t = []
  · simp [hne]
  · simp [getLast?_append_newline l hne, hne]

/-- A text without a newline ends in the middle of a line, unless it is empty. -/
theorem not_isTerminated {t : Text} (hn : '\n' ∉ t) (hne : t ≠ []) : ¬t.IsTerminated := by
  rintro (hnil | hlast)
  · exact hne hnil
  · exact hn (List.mem_of_mem_getLast? hlast)

/-- **A text is its rows with newlines between them**, and one at its end if it ends with one. -/
theorem join_rows (t : Text) :
    join ['\n'] t.rows ++ (if t.getLast? = some '\n' then ['\n'] else []) = t := by
  induction t using rows_induction with
  | nil => rfl
  | last t hn hne =>
    have hlast : ¬t.getLast? = some '\n' := fun h => hn (List.mem_of_mem_getLast? h)
    rw [rows_of_not_mem hn hne, join_singleton, if_neg hlast, List.append_nil]
  | line l t hn ih =>
    rw [rows_append_newline hn]
    by_cases hne : t = []
    · simp [hne]
    · -- There is a row in the rest, and so a newline before it.
      obtain ⟨row, rows, hrows⟩ := List.exists_cons_of_ne_nil (mt rows_eq_nil_iff.1 hne)
      rw [hrows] at ih ⊢
      rw [getLast?_append_newline l hne, join_cons_cons, List.append_assoc, List.append_assoc, ih,
        List.singleton_append]

end Text

namespace Source

/-- The first answers of a source. -/
def answers (s : Source) : Nat → List Pulled
  | 0 => []
  | k + 1 => s.next :: s.next.source.answers k

variable {s : Source} {limit : Nat} {medium : Medium} {t line long : Text} {before after : List Text}

/-! ### The last answers -/

/-- An exhausted source is done for ever, and is not touched. -/
theorem answers_of_exhausted (hx : s.exhausted = true) (k : Nat) :
    s.answers k = List.replicate k { pull := .done, source := s } := by
  induction k with
  | zero => rfl
  | succ k ih => rw [answers, next_of_exhausted hx, ih, List.replicate_succ]

/-- A source at the end of its text says that it is done, and is exhausted from then on. -/
theorem answers_of_atEnd (h : s.next = s.atEnd) (k : Nat) :
    s.answers k = List.replicate k s.atEnd := by
  cases k with
  | zero => rfl
  | succ k =>
    have hx : s.next.source.exhausted = true := by rw [h]; rfl
    rw [answers, answers_of_exhausted hx, h, List.replicate_succ]
    rfl

/-! ### The answers to a text -/

/-- The first row of a text, with a newline after it. -/
theorem answers_line (hx : s.exhausted = false)
    (hs : s.supply = .stream ⟨line ++ '\n' :: t, .clean, medium⟩ limit)
    (hc : isCountable limit = true) (hn : '\n' ∉ line) (hl : line.length ≤ limit) (k : Nat) :
    ∃ s' : Source, s'.exhausted = false ∧ s'.supply = .stream ⟨t, .clean, medium⟩ limit ∧
      s'.line = s.line + 1 ∧ s'.name = s.name ∧
      s.answers (k + 1) = { pull := .line line, source := s' } :: s'.answers k := by
  refine ⟨{ s with supply := .stream ⟨t, .clean, medium⟩ limit, line := s.line + 1 }, hx, rfl, rfl,
    rfl, ?_⟩
  rw [answers, next_line hx hs hc hn hl]

/-- A row over the limit at the front of a text. -/
theorem answers_tooLong (hx : s.exhausted = false)
    (hs : s.supply = .stream ⟨t, .clean, medium⟩ limit) (hc : isCountable limit = true)
    (hrows : t.rows = long :: after) (hlong : limit < long.length) (k : Nat) :
    ∃ s' : Source, s'.exhausted = true ∧ s'.line = s.line + 1 ∧
      s.answers (k + 1) =
        { pull := .fault (.lineTooLong (s.line + 1) limit), source := s' } ::
          List.replicate k { pull := .done, source := s' } := by
  refine ⟨{ s with line := s.line + 1, exhausted := true }, rfl, rfl, ?_⟩
  rw [answers, next_long hx hs hc hrows hlong, tooLong, answers_of_exhausted rfl]

/-- **The answers to a text within the limit.** The rows come in order and are counted, a missing newline
after the last of them is remarked on, and after them the source is done. -/
theorem answers_of_within (hx : s.exhausted = false)
    (hs : s.supply = .stream ⟨t, .clean, medium⟩ limit) (hc : isCountable limit = true)
    (hwithin : ∀ row ∈ t.rows, row.length ≤ limit) (k : Nat) :
    (s.answers (t.rows.length + k)).map (·.pull) =
        t.rows.map .line ++ List.replicate k .done ∧
      (s.answers (t.rows.length + k)).map (·.source.line) =
        List.range' (s.line + 1) t.rows.length ++ List.replicate k (s.line + t.rows.length) ∧
      (s.answers (t.rows.length + k)).flatMap (·.events) =
        if t.IsTerminated then [] else [.missingNewline s.name] := by
  -- The source changes with each line, so the induction is over all sources with the rest of the text.
  induction t using Text.rows_induction generalizing s with
  | nil =>
    have hnext : s.next = s.atEnd :=
      (next_stream hx hs hc).trans (lineOfStream_last List.not_mem_nil (Nat.zero_le _))
    rw [answers_of_atEnd hnext]
    simp [atEnd, exhaust, Text.IsTerminated]
  | last t hn hne =>
    have hl : t.length ≤ limit := hwithin t (by simp [Text.rows_of_not_mem hn hne])
    -- The last row has no newline. It is given with the only remark, and the source is exhausted by it.
    have hnext := next_lastLine hx hs hc hn hne hl
    have hx' : s.next.source.exhausted = true := by rw [hnext]
    rw [Text.rows_of_not_mem hn hne, List.length_singleton, Nat.add_comm, answers,
      answers_of_exhausted hx', hnext]
    simp [Text.not_isTerminated hn hne]
  | line l t hn ih =>
    rw [Text.rows_append_newline hn] at hwithin ⊢
    obtain ⟨hl, hwithin⟩ := List.forall_mem_cons.1 hwithin
    -- One answer is taken off the front, and the induction is for the source after it.
    obtain ⟨s', hx', hs', hline, hname, hrun⟩ := answers_line hx hs hc hn hl (t.rows.length + k)
    obtain ⟨hpulls, hnumbers, hevents⟩ := ih hx' hs' hwithin
    rw [List.length_cons, Nat.add_right_comm, hrun]
    simp only [List.map_cons, List.flatMap_cons, hpulls, hnumbers, hevents, hline, hname,
      Text.isTerminated_append_newline]
    -- The numbers go on from the one of this row.
    have hcount : s.line + 1 + t.rows.length = s.line + (t.rows.length + 1) := by omega
    refine ⟨rfl, ?_, rfl⟩
    rw [hcount, ← List.cons_append, ← List.range'_succ]

/-- **The answers to a text with a row over the limit.** The rows before it come in order and are counted,
it is told of under its own number, and after that the source is done and stays as it is. Nothing is
remarked on. -/
theorem answers_of_long (hx : s.exhausted = false)
    (hs : s.supply = .stream ⟨t, .clean, medium⟩ limit) (hc : isCountable limit = true)
    (hrows : t.rows = before ++ long :: after) (hbefore : ∀ row ∈ before, row.length ≤ limit)
    (hlong : limit < long.length) (k : Nat) :
    (s.answers (before.length + 1 + k)).map (·.pull) =
        before.map .line ++
          .fault (.lineTooLong (s.line + before.length + 1) limit) :: List.replicate k .done ∧
      (s.answers (before.length + 1 + k)).map (·.source.line) =
        List.range' (s.line + 1) (before.length + 1) ++
          List.replicate k (s.line + before.length + 1) ∧
      (s.answers (before.length + 1 + k)).flatMap (·.events) = [] ∧
      ∃ last : Source, last.exhausted = true ∧
        ((s.answers (before.length + 1 + k)).drop before.length).map (·.source) =
          List.replicate (k + 1) last := by
  induction before generalizing s t with
  | nil =>
    -- The row over the limit is the next one. After the report the source does not change any more.
    obtain ⟨s', hx', hline, hrun⟩ := answers_tooLong hx hs hc hrows hlong k
    rw [List.length_nil, Nat.zero_add, Nat.add_comm 1 k, hrun]
    refine ⟨?_, ?_, ?_, s', hx', ?_⟩
    · simp
    · simp [hline]
    · simp
    · simp [List.replicate_succ]
  | cons row before ih =>
    obtain ⟨hl, hbefore⟩ := List.forall_mem_cons.1 hbefore
    -- There is a row after this one, and so a newline.
    obtain ⟨hn, ⟨-, hnil⟩ | ⟨t, rfl, hrest⟩⟩ := Text.cases_rows hrows
    · simp at hnil
    obtain ⟨s', hx', hs', hline, -, hrun⟩ :=
      answers_line hx hs hc hn hl (before.length + 1 + k)
    obtain ⟨hpulls, hnumbers, hevents, hlast⟩ := ih hx' hs' hrest hbefore
    rw [List.length_cons, Nat.add_right_comm _ 1 k, hrun]
    simp only [List.map_cons, List.flatMap_cons, List.drop_succ_cons, hpulls, hnumbers, hevents,
      hline]
    have hcount : s.line + 1 + before.length = s.line + (before.length + 1) := by omega
    refine ⟨?_, ?_, rfl, hlast⟩
    · rw [hcount, List.cons_append]
    · rw [hcount, ← List.cons_append, ← List.range'_succ]

theorem isCountable_of_lt (h : limit + 1 < 2 ^ 63) : isCountable limit = true := by
  rw [isCountable, Bool.and_eq_true, decide_eq_true_iff, decide_eq_true_iff]
  omega

/-- **A new source of a text gives its rows, and enforces the limit exactly.** The rows with newlines
between them are the text without its last newline. If none is over the limit, they are the answers, each
counted, and then the source is done for ever. A missing newline at the end is remarked on once, and
nothing else. Otherwise the answers are the rows before the first that is over the limit, and the report
on that row under its number, without a remark. The source is exhausted then, and does not change any
more. -/
theorem answers_ofStream (t : Text) (medium : Medium) (limit : Nat) (name : Text) (k : Nat)
    (hlimit : limit + 1 < 2 ^ 63) :
    let s := ofStream ⟨t, .clean, medium⟩ limit name
    Text.join ['\n'] t.rows ++ (if t.getLast? = some '\n' then ['\n'] else []) = t ∧
    ((∀ row ∈ t.rows, row.length ≤ limit) →
      (s.answers (t.rows.length + k)).map (·.pull) =
          t.rows.map .line ++ List.replicate k .done ∧
        (s.answers (t.rows.length + k)).map (·.source.line) =
          List.range' 1 t.rows.length ++ List.replicate k t.rows.length ∧
        (s.answers (t.rows.length + k)).flatMap (·.events) =
          if t = [] ∨ t.getLast? = some '\n' then [] else [.missingNewline s.name]) ∧
    ∀ before long after, t.rows = before ++ long :: after →
      (∀ row ∈ before, row.length ≤ limit) → limit < long.length →
      (s.answers (before.length + 1 + k)).map (·.pull) =
          before.map .line ++ .fault (.lineTooLong (before.length + 1) limit) ::
            List.replicate k .done ∧
        (s.answers (before.length + 1 + k)).map (·.source.line) =
          List.range' 1 (before.length + 1) ++ List.replicate k (before.length + 1) ∧
        (s.answers (before.length + 1 + k)).flatMap (·.events) = [] ∧
        ∃ last : Source, last.exhausted = true ∧
          ((s.answers (before.length + 1 + k)).drop before.length).map (·.source) =
            List.replicate (k + 1) last := by
  intro s
  have hx : s.exhausted = false := exhausted_ofStream
  have hs : s.supply = .stream ⟨t, .clean, medium⟩ limit := supply_ofStream
  have hline : s.line = 0 := line_ofStream
  have hc : isCountable limit = true := isCountable_of_lt hlimit
  refine ⟨t.join_rows, fun hwithin => ?_, fun before long after hrows hbefore hlong => ?_⟩
  · have hanswers := answers_of_within hx hs hc hwithin k
    rw [hline, Nat.zero_add, Nat.zero_add] at hanswers
    exact hanswers
  · have hanswers := answers_of_long hx hs hc hrows hbefore hlong k
    rw [hline, Nat.zero_add, Nat.zero_add] at hanswers
    exact hanswers

/-- A limit of two, with rows of none, one and two characters before one of three, or without it. -/
theorem answers_ofStream_limit_two :
    let s := ofStream ⟨"ab\n\nc".toList, .clean, .memory⟩ 2
    let s' := ofStream ⟨"ab\n\nabc\nd\n".toList, .clean, .memory⟩ 2
    (s.answers 5).map (·.pull) =
        [.line "ab".toList, .line [], .line "c".toList, .done, .done] ∧
      (s.answers 5).map (·.source.line) = [1, 2, 3, 3, 3] ∧
      (s.answers 5).flatMap (·.events) = [.missingNewline "<stream>".toList] ∧
      (s'.answers 5).map (·.pull) =
        [.line "ab".toList, .line [], .fault (.lineTooLong 3 2), .done, .done] ∧
      (s'.answers 5).flatMap (·.events) = [] := by
  intro s s'
  obtain ⟨-, hwithin, -⟩ := answers_ofStream "ab\n\nc".toList .memory 2 [] 2 (by decide)
  obtain ⟨-, -, hlong⟩ := answers_ofStream "ab\n\nabc\nd\n".toList .memory 2 [] 2 (by decide)
  obtain ⟨hpulls, hnumbers, hevents⟩ := hwithin (by decide)
  obtain ⟨hpulls', -, hevents', -⟩ :=
    hlong ["ab".toList, []] "abc".toList ["d".toList] (by decide) (by decide) (by decide)
  exact ⟨hpulls, hnumbers, hevents, hpulls', hevents'⟩

/-- A limit that a stream cannot count to is refused, also where there is no row to measure by it. -/
theorem not_answers_ofStream :
    ¬∀ (t : Text) (limit : Nat), 0 < limit → (∀ row ∈ t.rows, row.length ≤ limit) →
      ((ofStream ⟨t, .clean, .memory⟩ limit).answers (t.rows.length + 1)).map (·.pull) =
        t.rows.map .line ++ [.done] := by
  intro h
  have hfirst := h [] 9223372036854775807 (by decide) (by simp)
  have hfault : (answers (ofStream ⟨[], .clean, .memory⟩ 9223372036854775807) 1).map (·.pull) =
      [.fault (.lookaheadOutOfRange .memory)] := by decide
  exact absurd (hfault.symm.trans hfirst) (by decide)

end Source

end ControlFile

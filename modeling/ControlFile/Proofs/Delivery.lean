import ControlFile.Proofs.Lines
import Mathlib.Tactic.SplitIfs

/-!
# What a source delivers

Whoever reads a source asks for one line after another until the answer is no line. The relation
`Source.Delivers` records such a row of answers: the lines, the answer that ended them, and the source
after it. It does not say where the lines come from, so that what follows from it holds for lists of
lines and for streams, with and without a fault.

The one supply that is looked into here is a text with a clean end and a line limit. It delivers its
rows up to the first one over the limit (`Text.within`), and then it is done or reports that row
(`Source.delivers_text`). A line limit whose successor is no count of 64 bits delivers nothing at all,
so the limit is asked to be countable.
-/

namespace ControlFile

/-- The lines of a text before the first one over the limit. -/
def Text.within (limit : Nat) (t : Text) : List Text := t.rows.takeWhile (·.length ≤ limit)

namespace Source

/-- The source answers with these lines, then with `stop`, which is no line, and is `after` from then
on. -/
inductive Delivers : Source → List Text → Pull → Source → Prop
  | stop {s after : Source} {stop : Pull} (h : s.next.pull = stop) (hl : ∀ line, stop ≠ .line line)
    (ha : s.next.source = after) : Delivers s [] stop after
  | line {s after : Source} {stop : Pull} {line : Text} {lines : List Text}
    (h : s.next.pull = .line line) (hd : Delivers s.next.source lines stop after) :
    Delivers s (line :: lines) stop after

/-! ### The start of a stream -/

section Start

variable {stream : Stream} {limit : Int} {name : Text}

@[simp] theorem supply_ofStream : (ofStream stream limit name).supply = .stream stream limit := by
  unfold ofStream
  split <;> rfl

@[simp] theorem exhausted_ofStream : (ofStream stream limit name).exhausted = false := by
  unfold ofStream
  split <;> rfl

@[simp] theorem line_ofStream : (ofStream stream limit name).line = 0 := by
  unfold ofStream
  split <;> rfl

end Start

/-! ### The end of the lines -/

/-- Where a text ends and no line is left, the source is exhausted. -/
theorem exhausted_of_atTextEnd_done {s : Source} {limit : Int} {last : Text} {ending : Ending}
    (h : (s.atTextEnd limit last ending).pull = .done) :
    (s.atTextEnd limit last ending).source.exhausted = true := by
  cases ending with
  | clean =>
    -- A line within the limit is an answer of its own, so only an empty rest is left.
    rw [atTextEnd, atLastLine] at h ⊢
    split_ifs at h ⊢
    · rfl
    · rfl
  | corrupt damage => cases h
  | failed cause => cases h

/-- A stream that is done is exhausted. -/
theorem exhausted_of_nextOfStream_done {s : Source} {stream : Stream} {limit : Int}
    (h : (s.nextOfStream stream limit).pull = .done) :
    (s.nextOfStream stream limit).source.exhausted = true := by
  rw [nextOfStream] at h ⊢
  split_ifs at h ⊢ with hc
  rw [lineOfStream] at h ⊢
  -- A stream answers that it is done only where its text has come to the end.
  rcases hsplit : splitLine stream.text with ⟨line, rest⟩
  simp only [hsplit] at h ⊢
  split_ifs at h ⊢
  · rfl
  · rfl
  · cases rest with
    | none => exact exhausted_of_atTextEnd_done h
    | some rest => cases h

/-- A source that is done is exhausted. -/
theorem exhausted_of_next_done {s : Source} (h : s.next.pull = .done) :
    s.next.source.exhausted = true := by
  cases hx : s.exhausted with
  | true => rw [next_of_exhausted hx, hx]
  | false =>
    rw [next, if_neg (by simp [hx])] at h ⊢
    cases hs : s.supply with
    | lines rest failure =>
      rw [hs] at h
      rcases rest with _ | ⟨line, rest⟩
      · cases failure with
        | none => rfl
        | some cause => cases h
      · cases h
    | stream stream limit =>
      rw [hs] at h
      exact exhausted_of_nextOfStream_done h

/-- An exhausted source delivers nothing. -/
theorem Delivers.eq_nil_of_exhausted {s after : Source} {lines : List Text} {stop : Pull}
    (h : s.Delivers lines stop after) (hx : s.exhausted = true) : lines = [] ∧ stop = .done := by
  cases h with
  | stop h hl ha =>
    rw [next_of_exhausted hx] at h
    exact ⟨rfl, h.symm⟩
  | line h hd => simp [next_of_exhausted hx] at h

/-! ### Texts -/

variable {s : Source} {limit : Nat} {medium : Medium} {ending : Ending} {line t : Text}

theorem next_stream {stream : Stream} (hx : s.exhausted = false)
    (hs : s.supply = .stream stream limit) (hc : isCountable limit = true) :
    s.next = s.lineOfStream stream limit := by
  simp [next, hx, hs, nextOfStream, hc]

/-- A line within the limit that has a newline is given, and the rest of the text is left. -/
theorem lineOfStream_line (h : '\n' ∉ line) (hl : line.length ≤ limit) :
    s.lineOfStream ⟨line ++ '\n' :: t, ending, medium⟩ limit =
      { pull := .line line
        source := { s with supply := .stream ⟨t, ending, medium⟩ limit, line := s.line + 1 } } := by
  -- The limit is a natural number, so it is not the one that stands for none.
  have hneg : (limit : Int) ≠ -1 := by omega
  have hlim : ¬(0 ≤ (limit : Int) ∧ (limit : Int) < line.length) := by omega
  simp only [lineOfStream, splitLine_append_newline h, if_neg hneg, if_neg hlim]

/-- Without a newline within the limit the text has come to its end. -/
theorem lineOfStream_last (h : '\n' ∉ t) (hl : t.length ≤ limit) :
    s.lineOfStream ⟨t, ending, medium⟩ limit = s.atTextEnd limit t ending := by
  have hneg : (limit : Int) ≠ -1 := by omega
  have hlim : ¬(0 ≤ (limit : Int) ∧ (limit : Int) < t.length) := by omega
  simp only [lineOfStream, splitLine_of_not_mem h, if_neg hneg, if_neg hlim]

/-- A line over the limit is reported. -/
theorem lineOfStream_long {rest : Option Text} (h : splitLine t = (line, rest))
    (hl : limit < line.length) : s.lineOfStream ⟨t, ending, medium⟩ limit = s.tooLong limit := by
  have hneg : (limit : Int) ≠ -1 := by omega
  have hlim : 0 ≤ (limit : Int) ∧ (limit : Int) < line.length := by omega
  simp only [lineOfStream, h, if_neg hneg, if_pos hlim]

theorem next_line (hx : s.exhausted = false)
    (hs : s.supply = .stream ⟨line ++ '\n' :: t, ending, medium⟩ limit)
    (hc : isCountable limit = true) (hn : '\n' ∉ line) (hl : line.length ≤ limit) :
    s.next =
      { pull := .line line
        source := { s with supply := .stream ⟨t, ending, medium⟩ limit, line := s.line + 1 } } :=
  (next_stream hx hs hc).trans (lineOfStream_line hn hl)

/-- The last line without a newline is given with a remark, and exhausts the source. -/
theorem next_lastLine (hx : s.exhausted = false) (hs : s.supply = .stream ⟨t, .clean, medium⟩ limit)
    (hc : isCountable limit = true) (hn : '\n' ∉ t) (hne : t ≠ []) (hl : t.length ≤ limit) :
    s.next =
      { pull := .line t, source := { s with line := s.line + 1, exhausted := true }
        events := [.missingNewline s.name] } := by
  have hlim : ¬(limit : Int) < t.length := by omega
  rw [next_stream hx hs hc, lineOfStream_last hn hl, atTextEnd, atLastLine, if_neg hne, if_neg hlim]

/-- A first row over the limit is reported, with a newline behind it or without. -/
theorem next_long {more : List Text} (hx : s.exhausted = false)
    (hs : s.supply = .stream ⟨t, ending, medium⟩ limit) (hc : isCountable limit = true)
    (hrows : t.rows = line :: more) (hl : limit < line.length) : s.next = s.tooLong limit := by
  obtain ⟨rest, hsplit⟩ := exists_splitLine_of_rows hrows
  rw [next_stream hx hs hc, lineOfStream_long hsplit hl]

/-- The answer of a source after the lines of a text within a limit. -/
def lastAnswer (s : Source) (limit : Nat) (t : Text) : Pull :=
  if t.rows.all (·.length ≤ limit) then .done
  else .fault (.lineTooLong (s.line + (t.within limit).length + 1) limit)

/-- A text whose first row is over the limit delivers nothing but the report on it. -/
theorem delivers_of_long {more : List Text} (hx : s.exhausted = false)
    (hs : s.supply = .stream ⟨t, ending, medium⟩ limit) (hc : isCountable limit = true)
    (hrows : t.rows = line :: more) (hl : limit < line.length) :
    ∃ after, s.Delivers (t.within limit) (s.lastAnswer limit t) after ∧ after.name = s.name ∧
      after.line = s.line + (t.within limit).length + 1 := by
  have hnext : s.next = s.tooLong limit := next_long hx hs hc hrows hl
  have hover : ¬line.length ≤ limit := by omega
  have hwithin : t.within limit = [] := by simp [Text.within, hrows, hover]
  have hstop : s.lastAnswer limit t = .fault (.lineTooLong (s.line + 1) limit) := by
    simp [lastAnswer, hrows, hover, hwithin]
  rw [hwithin, hstop]
  exact ⟨s.next.source, .stop (by rw [hnext]; rfl) (by simp) rfl, by rw [hnext]; rfl,
    by rw [hnext]; rfl⟩

/-- **Delivery of a text.** The rows come in order up to the first one over the limit. If there is
one, the source reports it and has counted it. -/
theorem delivers_text (hx : s.exhausted = false) (hs : s.supply = .stream ⟨t, .clean, medium⟩ limit)
    (hc : isCountable limit = true) :
    ∃ after, s.Delivers (t.within limit) (s.lastAnswer limit t) after ∧ after.name = s.name ∧
      (t.rows.all (·.length ≤ limit) = false →
        after.line = s.line + (t.within limit).length + 1) := by
  -- The source changes with each line, so the induction is over all sources with the rest of the text.
  induction t using Text.rows_induction generalizing s with
  | nil =>
    refine ⟨s.exhaust, .stop ?_ (by simp [lastAnswer]) ?_, rfl, by simp⟩ <;>
      rw [next_stream hx hs hc, lineOfStream_last List.not_mem_nil (Nat.zero_le _)] <;> rfl
  | last t hn hne =>
    have hrows : Text.rows t = [t] := Text.rows_of_not_mem hn hne
    by_cases hl : t.length ≤ limit
    · -- The last line is delivered with a remark, and leaves the source exhausted.
      have hnext := next_lastLine hx hs hc hn hne hl
      have hwithin : t.within limit = [t] := by simp [Text.within, hrows, hl]
      have hstop : s.lastAnswer limit t = .done := by simp [lastAnswer, hrows, hl]
      rw [hwithin, hstop]
      refine ⟨s.next.source, .line (by rw [hnext]) (.stop ?_ (by simp) ?_), by rw [hnext], ?_⟩
      · rw [next_of_exhausted (by rw [hnext])]
      · rw [next_of_exhausted (by rw [hnext])]
      · simp [hrows, hl]
    · obtain ⟨after, hd, hname, hline⟩ := delivers_of_long hx hs hc hrows (by omega)
      exact ⟨after, hd, hname, fun _ => hline⟩
  | line l t hn ih =>
    have hrows : Text.rows (l ++ '\n' :: t) = l :: t.rows := Text.rows_append_newline hn t
    by_cases hl : l.length ≤ limit
    · -- The line is within the limit, and the induction is on what is left of the text.
      have hnext := next_line hx hs hc hn hl
      have hwithin : Text.within limit (l ++ '\n' :: t) = l :: t.within limit := by
        simp [Text.within, hrows, hl]
      obtain ⟨after, hd, hname, hline⟩ := ih (s := s.next.source) (by rw [hnext]; exact hx)
        (by rw [hnext])
      -- The number of a line that is reported later does not depend on who has counted this one.
      have hstop : s.next.source.lastAnswer limit t = s.lastAnswer limit (l ++ '\n' :: t) := by
        simp only [lastAnswer, hnext, hrows, hwithin, List.all_cons, List.length_cons]
        rw [show s.line + ((t.within limit).length + 1) = s.line + 1 + (t.within limit).length by
          omega]
        simp [hl]
      rw [hwithin, ← hstop]
      refine ⟨after, .line (by rw [hnext]) hd, by rw [hname, hnext], fun hall => ?_⟩
      rw [hline (by simpa [hrows, hl] using hall), hnext, List.length_cons]
      simp only
      omega
    · obtain ⟨after, hd, hname, hline⟩ := delivers_of_long hx hs hc hrows (by omega)
      exact ⟨after, hd, hname, fun _ => hline⟩

end Source

end ControlFile

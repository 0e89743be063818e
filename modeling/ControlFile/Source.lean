import ControlFile.Error
import ControlFile.Log

/-!
# Sources of lines

A source delivers lines without their newlines, one at each `Source.next`. There are two kinds of
supply: a list of lines that is there already, and the text of a stream, which is divided at its
newlines and checked against a line limit.

A stream may end in a fault: its text can be read, and reading on fails. Of the text before a fault
only the complete lines are delivered, unless the line limit is reached first.

A line limit of `n` means that a line is looked for among the next `n + 1` characters. So a limit of
`-1` looks nowhere and finds the stream at its end, and a limit below that sets no bound while it
looks, but refuses a last line without a newline, whatever its length. Streams count characters in
words of 64 bits with a sign, so a limit for which `n + 1` is no such word is refused, and nothing is
read (`Source.isCountable`).

`Source.remaining` bounds the lines still to come. Each delivered line lowers it
(`Source.remaining_next_lt`), so that reading to the end ends.
-/

namespace ControlFile

/-- What reading beyond the text of a stream meets. -/
inductive Ending where
  /-- The end of the data. -/
  | clean
  /-- Data that no longer makes sense. -/
  | corrupt (damage : Damage)
  /-- Another failure to read. -/
  | failed (cause : Error)
  deriving DecidableEq, Repr

/-- The text of a stream and what comes after it. -/
structure Stream where
  text : Text
  ending : Ending := .clean
  medium : Medium := .memory
  deriving DecidableEq, Repr

/-- Where the lines of a source come from. -/
inductive Supply where
  /-- A list of lines, and an error that takes the place of the line after the last. -/
  | lines (rest : List Text) (failure : Option Error)
  /-- A stream and the limit of its lines. -/
  | stream (rest : Stream) (limit : Int)
  deriving DecidableEq, Repr

/-- A source of lines. -/
structure Source where
  supply : Supply
  /-- The name of the source in messages. -/
  name : Text := "<stream>".toList
  /-- The number of lines read so far, one that is too long included. -/
  line : Nat := 0
  /-- Whether there is nothing more to read. -/
  exhausted : Bool := false
  deriving DecidableEq, Repr

/-- What a source answers. -/
inductive Pull where
  | line (text : Text)
  | done
  | fault (cause : Error)
  deriving DecidableEq, Repr

/-- An answer, the source after it, and the events to log. -/
structure Pulled where
  pull : Pull
  source : Source
  events : List Event := []

namespace Source

/-- A source of these lines, with an error that takes the place of the line after the last. -/
def ofLines (lines : List Text) (failure : Option Error := none) : Source :=
  { supply := .lines lines failure }

/-- A source of the lines of a stream. An empty name counts as none. -/
def ofStream (stream : Stream) (limit : Int) (name : Text := []) : Source :=
  if name = [] then { supply := .stream stream limit }
  else { supply := .stream stream limit, name }

/-- The text up to the first newline, and the text after that newline if there is one. -/
def splitLine (t : Text) : Text × Option Text :=
  match Text.cut? '\n' t with
  | some (line, rest) => (line, some rest)
  | none => (t, none)

/-- The source at its end. -/
def exhaust (s : Source) : Source := { s with exhausted := true }

/-- The answer at the end of the data. -/
def atEnd (s : Source) : Pulled := { pull := .done, source := s.exhaust }

/-- The answer to a line that is longer than the limit. -/
def tooLong (s : Source) (limit : Int) : Pulled :=
  { pull := .fault (.lineTooLong (s.line + 1) limit)
    source := { s with line := s.line + 1, exhausted := true } }

/-- The answer where the data ends without a newline after `last`. -/
def atLastLine (s : Source) (limit : Int) (last : Text) : Pulled :=
  if last = [] then s.atEnd
  else if limit < last.length then s.tooLong limit
  else
    { pull := .line last
      source := { s with line := s.line + 1, exhausted := true }
      events := [.missingNewline s.name] }

/-- The answer where the text of a stream is used up, and `last` is left of it. -/
def atTextEnd (s : Source) (limit : Int) (last : Text) : Ending → Pulled
  | .clean => s.atLastLine limit last
  -- Where the stream is at fault, what stands after its last newline is lost.
  | .corrupt damage => { pull := .fault (.corruptData s.name s.line damage), source := s.exhaust }
  | .failed cause => { pull := .fault cause, source := s }

/-- Whether the characters that a limit tells to look at are a number that a stream can count. -/
def isCountable (limit : Int) : Bool :=
  -0x8000000000000000 ≤ limit + 1 && limit + 1 < 0x8000000000000000

/-- The answer of a source whose supply is this stream, for a limit that can be counted. -/
def lineOfStream (s : Source) (stream : Stream) (limit : Int) : Pulled :=
  let (line, rest?) := splitLine stream.text
  -- Whoever looks at no characters finds none.
  if limit = -1 then s.atEnd
  -- The line is told to be too long before the end of the stream, or a fault in it, can show.
  else if 0 ≤ limit ∧ limit < line.length then s.tooLong limit
  else match rest? with
    | some rest =>
      { pull := .line line
        source :=
          { s with supply := .stream { stream with text := rest } limit, line := s.line + 1 } }
    | none => s.atTextEnd limit line stream.ending

/-- The answer of a source whose supply is this stream. -/
def nextOfStream (s : Source) (stream : Stream) (limit : Int) : Pulled :=
  if isCountable limit then s.lineOfStream stream limit
  else { pull := .fault (.lookaheadOutOfRange stream.medium), source := s }

/-- The answer of a source whose supply is these lines. -/
def nextOfLines (s : Source) : List Text → Option Error → Pulled
  | line :: rest, failure =>
    { pull := .line line, source := { s with supply := .lines rest failure, line := s.line + 1 } }
  | [], some cause => { pull := .fault cause, source := s.exhaust }
  | [], none => s.atEnd

/-- The next line of a source, or why there is none. -/
def next (s : Source) : Pulled :=
  if s.exhausted then { pull := .done, source := s }
  else match s.supply with
    | .lines rest failure => s.nextOfLines rest failure
    | .stream stream limit => s.nextOfStream stream limit

/-! ### How much is left -/

/-- A bound on the answers that a supply has yet to give. -/
def Supply.remaining : Supply → Nat
  | .lines rest _ => rest.length
  | .stream stream _ => stream.text.length

/-- A bound on the lines still to come, which is zero for an exhausted source only. -/
def remaining (s : Source) : Nat := if s.exhausted then 0 else Supply.remaining s.supply + 1

@[simp] theorem remaining_exhaust (s : Source) : s.exhaust.remaining = 0 := rfl

theorem length_lt_of_splitLine {t line rest : Text} (h : splitLine t = (line, some rest)) :
    rest.length < t.length := by
  have hcut : Text.cut? '\n' t = some (line, rest) := by
    unfold splitLine at h
    split at h <;> simp_all
  unfold Text.cut? at hcut
  split at hcut
  · simp at hcut
  · rename_i c r hdrop
    simp only [Option.some.injEq, Prod.mk.injEq] at hcut
    have := (List.dropWhile_suffix (· != '\n') (l := t)).length_le
    rw [hdrop, List.length_cons, hcut.2] at this
    omega

/-- **Progress.** A source that is not exhausted has less left after each answer but a fault. -/
theorem remaining_next_lt {s : Source} (h : s.exhausted = false)
    (hf : ∀ e, s.next.pull ≠ .fault e) : s.next.source.remaining < s.remaining := by
  have hs : s.remaining = Supply.remaining s.supply + 1 := by simp [remaining, h]
  rw [hs]
  unfold next at hf ⊢
  rw [if_neg (by simp [h])] at hf ⊢
  split at hf
  · rename_i rest failure hsupply
    rcases rest with _ | ⟨line, rest⟩
    · cases failure <;> simp [nextOfLines, atEnd]
    · simp [nextOfLines, remaining, h, Supply.remaining, hsupply]
  · rename_i stream limit hsupply
    have countable : isCountable limit = true := by
      cases hc : isCountable limit with
      | true => rfl
      | false => simp [nextOfStream, hc] at hf
    unfold nextOfStream at hf ⊢
    rw [if_pos countable] at hf ⊢
    unfold lineOfStream at hf ⊢
    rcases hsplit : splitLine stream.text with ⟨line, _ | rest⟩
    · simp only [hsplit] at hf ⊢
      split
      · simp [atEnd]
      · split
        · simp [tooLong, remaining]
        · cases hend : stream.ending with
          | clean =>
            simp only [atTextEnd, atLastLine]
            split
            · simp [atEnd]
            · split <;> simp [tooLong, remaining]
          | corrupt damage => simp [atTextEnd]
          | failed cause => simp_all [atTextEnd]
    · have := length_lt_of_splitLine hsplit
      simp only
      split
      · simp [atEnd]
      · split
        · simp [tooLong, remaining]
        · simp only [remaining, h, Supply.remaining, hsupply]
          simpa using this

/-- An exhausted source stays as it is. -/
theorem next_of_exhausted {s : Source} (h : s.exhausted = true) :
    s.next = { pull := .done, source := s } := by
  simp [next, h]

end Source

end ControlFile

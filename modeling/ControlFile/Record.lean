import ControlFile.Session
import ControlFile.Source

/-!
# Reading records from a source

A source holds records with blank lines between them. `readRecord` feeds the lines of a source to a
session until its record ends, the source ends or fails, or a line is refused; what is then in the
record is a package if it has a name. `readAll` repeats this until the source is exhausted.

The lines of a record are consumed in order (`Session.run`), and the reading of all records ends
because each record takes something from the source (`Session.remaining_run_lt`).

What `readAll` gives is a `Trace`: the packages and the events in the order in which they come, and
the error that ended it, if one did. A consumer that stops early takes a part of the trace.
-/

namespace ControlFile

/-- What became of a session that was fed from a source. -/
structure Run where
  session : Session
  source : Source
  /-- Why the source or the session gave up, if one did. -/
  failure : Option Error := none
  events : List Event

namespace Session

/-- Feeds a session from a source until the record ends. The events of the lines before are handed
on in `log`, the latest one first. -/
def runFrom (s : Session) (source : Source) (log : List Event) : Run :=
  match _h : source.next with
  | { pull := .done, source := after, events } =>
    { session := s, source := after, events := (events.reverse ++ log).reverse }
  | { pull := .fault cause, source := after, events } =>
    { session := s, source := after, failure := some cause
      events := (events.reverse ++ log).reverse }
  | { pull := .line line, source := after, events } =>
    match s.feed line with
    | { session, outcome := .ended, events := more } =>
      { session, source := after, events := (more.reverse ++ (events.reverse ++ log)).reverse }
    | { session, outcome := .refused cause, events := more } =>
      { session, source := after, failure := some cause
        events := (more.reverse ++ (events.reverse ++ log)).reverse }
    | { session, outcome := .goesOn, events := more }
    | { session, outcome := .malformed, events := more } =>
      runFrom session after (more.reverse ++ (events.reverse ++ log))
termination_by source.remaining
decreasing_by
  all_goals
    have hx : source.exhausted = false := by
      cases hx : source.exhausted with
      | false => rfl
      | true => simp [Source.next_of_exhausted hx] at _h
    have := Source.remaining_next_lt hx (fun e => by simp [_h])
    rwa [_h] at this

/-- Feeds a session from a source until the record ends. -/
def run (s : Session) (source : Source) : Run := s.runFrom source []

/-- **Progress.** A run that does not fail takes something from its source. -/
theorem remaining_runFrom_lt (s : Session) (source : Source) (log : List Event)
    (hx : source.exhausted = false) (hf : (s.runFrom source log).failure = none) :
    (s.runFrom source log).source.remaining < source.remaining := by
  fun_induction runFrom s source log with
  | case1 s source log after events h =>
    have := Source.remaining_next_lt hx (fun e => by simp [h])
    rwa [h] at this
  | case2 => simp at hf
  | case3 s source log line after events h =>
    have := Source.remaining_next_lt hx (fun e => by simp [h])
    rwa [h] at this
  | case4 => simp at hf
  | case5 s source log line after events h session more hfed ih
  | case6 s source log line after events h session more hfed ih =>
    have hlt := Source.remaining_next_lt hx (fun e => by simp [h])
    rw [h] at hlt
    cases hafter : after.exhausted with
    | false => exact Nat.lt_trans (ih hafter hf) hlt
    | true =>
      rw [runFrom]
      split <;> rename_i hnext <;> rw [Source.next_of_exhausted hafter] at hnext
      · simp only [Pulled.mk.injEq] at hnext
        obtain ⟨-, rfl, -⟩ := hnext
        exact hlt
      · simp at hnext
      · simp at hnext

theorem remaining_run_lt (s : Session) (source : Source) (hx : source.exhausted = false)
    (hf : (s.run source).failure = none) : (s.run source).source.remaining < source.remaining :=
  remaining_runFrom_lt s source [] hx hf

end Session

/-! ### One record -/

/-- What reading one record gave. -/
inductive Verdict where
  /-- A package with a name. -/
  | record
  /-- Lines without a package name, or no lines. -/
  | empty
  /-- A record that the source failed to deliver to its end. -/
  | failed
  /-- A record whose reading ended with an error of another kind. -/
  | stopped (cause : Error)
  deriving DecidableEq, Repr

/-- A verdict, the record and the source after it, and the events to log. -/
structure Reading where
  verdict : Verdict
  package : Package
  source : Source
  events : List Event

/-- The verdict on a record that was delivered to its end, and the event to log. -/
def Package.verdict (p : Package) : Verdict × List Event :=
  match p.name with
  | none => (.empty, [])
  | some name => match p.fullVersionText? with
    | .ok version => (.record, [.recordRead name version])
    | .error cause => (.stopped cause, [])

/-- The verdict on a run, and the event to log. -/
def Run.verdict (r : Run) : Verdict × List Event :=
  match r.failure with
  | none => r.session.finish.package.verdict
  | some cause =>
    if cause.isReadFailure then (.failed, [.readFailed cause]) else (.stopped cause, [])

/-- Reads one record from a source into a package. Whatever happens, an open description is
stored. -/
def readRecord (package : Package) (requested : FieldSet) (config : Config) (source : Source) :
    Reading :=
  let run := (Session.start package requested config).run source
  let (verdict, events) := run.verdict
  -- The record is closed also after a failure, when its verdict no longer depends on it.
  { verdict, package := run.session.finish.package, source := run.source
    events := run.events ++ events }

theorem failure_eq_none_of_verdict {r : Run} (h : r.verdict.1 = .record ∨ r.verdict.1 = .empty) :
    r.failure = none := by
  unfold Run.verdict at h
  cases hf : r.failure with
  | none => rfl
  | some cause =>
    rw [hf] at h
    simp only at h
    split at h <;> simp at h

/-- A record or an empty reading takes something from its source. -/
theorem remaining_readRecord_lt {package : Package} {requested : FieldSet} {config : Config}
    {source : Source} (hx : source.exhausted = false)
    (hv : (readRecord package requested config source).verdict = .record ∨
      (readRecord package requested config source).verdict = .empty) :
    (readRecord package requested config source).source.remaining < source.remaining :=
  Session.remaining_run_lt _ _ hx (failure_eq_none_of_verdict hv)

/-! ### All records -/

/-- A package or an event, as they come. -/
inductive Item where
  | package (p : Package)
  | event (e : Event)
  deriving DecidableEq

/-- What reading a source gave: its items in order, and the error that ended it. -/
structure Trace where
  items : List Item
  failure : Option Error := none

namespace Trace

/-- The packages of a trace, in order. -/
def packages (t : Trace) : List Package :=
  t.items.filterMap fun
    | .package p => some p
    | .event _ => none

/-- The events of a trace, in order. -/
def events (t : Trace) : List Event :=
  t.items.filterMap fun
    | .package _ => none
    | .event e => some e

/-- The packages of a trace that no error ended. -/
def packages? (t : Trace) : Except Error (List Package) :=
  match t.failure with
  | none => .ok t.packages
  | some cause => .error cause

/-- The trace of a reading that an error ended before it gave anything. -/
def ofError (cause : Error) : Trace := { items := [], failure := some cause }

end Trace

/-- Reads the records of a source to its end. The items before are handed on in `done`, the latest
one first. -/
def readAllFrom (requested : FieldSet) (config : Config) (source : Source) (done : List Item) :
    Trace :=
  if _hx : source.exhausted then { items := done.reverse }
  else
    let reading := readRecord {} requested config source
    let done := (reading.events.map .event).reverse ++ done
    match _hv : reading.verdict with
    | .record => readAllFrom requested config reading.source (.package reading.package :: done)
    | .empty => readAllFrom requested config reading.source done
    | .failed =>
      { items := done.reverse
        failure := some (.recordsLost reading.source.name reading.source.line) }
    | .stopped cause => { items := done.reverse, failure := some cause }
termination_by source.remaining
decreasing_by
  · exact remaining_readRecord_lt (by simpa using _hx) (.inl _hv)
  · exact remaining_readRecord_lt (by simpa using _hx) (.inr _hv)

/-- Reads the records of a source to its end. -/
def readAll (requested : FieldSet) (config : Config) (source : Source) : Trace :=
  readAllFrom requested config source []

/-- Reads the records of a stream to its end, with the line limit of the configuration. -/
def readStream (requested : FieldSet) (config : Config) (stream : Stream) (name : Text := []) :
    Trace :=
  readAll requested config (.ofStream stream config.lineLimit name)

/-- Reads the records of a text. -/
def readText (requested : FieldSet) (config : Config) (text : Text) : Trace :=
  readStream requested config { text }

end ControlFile

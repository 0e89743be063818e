import ControlFile.Proofs.Delivery
import ControlFile.Proofs.Step
import ControlFile.Record
import Mathlib.Data.List.TakeWhile

/-!
# What the lines of a source give

Reading a source is a loop over records around a loop over lines, and both carry a log. The packages do
not depend on the log, and seen from one line to the next there is only one loop: a session reads a
line, and where the line ends the record, the package is handed over and a fresh session reads on.
`Session.harvest` is that loop, by recursion on the lines that are still to come.

* A `Harvest` holds the packages of a reading, in order, and the error that ended it, if one did.
* `Session.harvest` is what the lines ahead give to a session that stands anywhere in its record. The
  last argument is the failure that follows the lines, if one does.
* `Session.Reads` says that lines all go on with the record, and the harvest is that of the lines after
  them (`Session.Reads.harvest`).

**The reader harvests what its source delivers** (`harvest_readAll`): for every row of answers of a
source, of whatever kind, the trace of the reader has the packages and the failure of the harvest. For
a text these lines are its rows within the line limit (`harvest_readText`).
-/

namespace ControlFile

/-- The packages of a reading, in order, and the error that ended it, if one did. -/
@[ext] structure Harvest where
  packages : List Package := []
  failure : Option Error := none
  deriving DecidableEq

namespace Harvest

/-- The harvest with other packages before it. -/
def after (ps : List Package) (h : Harvest) : Harvest := { h with packages := ps ++ h.packages }

@[simp] theorem after_packages (ps : List Package) (h : Harvest) :
    (after ps h).packages = ps ++ h.packages := rfl

@[simp] theorem after_failure (ps : List Package) (h : Harvest) :
    (after ps h).failure = h.failure := rfl

@[simp] theorem after_nil (h : Harvest) : after [] h = h := rfl

theorem after_after (ps qs : List Package) (h : Harvest) :
    after ps (after qs h) = after (ps ++ qs) h := by
  simp [after]

end Harvest

/-- The harvest of a trace. -/
def Trace.harvest (t : Trace) : Harvest := { packages := t.packages, failure := t.failure }

/-- A trace gives its packages as a result if its harvest has no failure. -/
theorem Trace.packages?_eq_ok {t : Trace} {ps : List Package} :
    t.packages? = .ok ps ↔ t.harvest = { packages := ps } := by
  unfold packages? harvest
  cases t.failure <;> simp

/-- The error that a source answers with. -/
def Pull.cause? : Pull → Option Error
  | .fault cause => some cause
  | .line _ | .done => none

/-! ### From one line to the next -/

/-- The harvest that starts with a finished record: the record, if it is a package, and then the
rest. -/
def Package.harvest (p : Package) (rest : Harvest) : Harvest :=
  match p.verdict.1 with
  | .record => rest.after [p]
  | .stopped cause => { failure := some cause }
  | .empty | .failed => rest

/-- A record without a name is no package and leaves no trace in the harvest. -/
theorem Package.harvest_of_name_eq_none {p : Package} (h : p.name = none) (rest : Harvest) :
    p.harvest rest = rest := by
  simp [Package.harvest, Package.verdict, h]

/-- What the lines ahead give to a session, where each further record is read by `fresh` and the lines
are followed by this failure, if by any. -/
def Session.harvest : (s fresh : Session) → List Text → (last : Option Error) → Harvest
  | s, _, [], none => s.finish.package.harvest {}
  | _, _, [], some cause => { failure := some cause }
  | s, fresh, line :: lines, last =>
    match (s.feed line).outcome with
    | .ended => (s.feed line).session.finish.package.harvest (harvest fresh fresh lines last)
    | .refused cause => { failure := some cause }
    | .goesOn | .malformed => harvest (s.feed line).session fresh lines last

/-- A record with a name and a version that can be written is a package. -/
theorem Package.harvest_of_name {p : Package} {name : Text} {version : Option Text}
    (hname : p.name = some name) (hversion : p.fullVersionText? = .ok version) (rest : Harvest) :
    p.harvest rest = rest.after [p] := by
  simp [Package.harvest, Package.verdict, hname, hversion]

/-- A finished record gives packages and no failure when it has no name, or when it has a name and a
version that can be written. -/
theorem Package.harvest_eq_iff {p : Package} {rest : Harvest} {ps : List Package} :
    p.harvest rest = { packages := ps } ↔
      p.name = none ∧ rest = { packages := ps } ∨
      ∃ name version qs, p.name = some name ∧ p.fullVersionText? = .ok version ∧
        rest = { packages := qs } ∧ ps = p :: qs := by
  cases hn : p.name with
  | none => simp [harvest_of_name_eq_none hn]
  | some name =>
    -- A named record with a version that cannot be written is a failure, and no package.
    cases hv : p.fullVersionText? with
    | error cause => simp [Package.harvest, Package.verdict, hn, hv]
    | ok version =>
      obtain ⟨qs, failure⟩ := rest
      rw [harvest_of_name hn hv]
      simp only [Harvest.after, reduceCtorEq, false_and, false_or, Option.some.injEq]
      constructor
      · intro h
        obtain ⟨rfl, rfl⟩ := Harvest.mk.inj h
        exact ⟨name, version, qs, rfl, rfl, rfl, rfl⟩
      · rintro ⟨-, -, qs', -, -, hrest, rfl⟩
        obtain ⟨rfl, rfl⟩ := Harvest.mk.inj hrest
        rfl

/-- A package of a harvest is the finished record, which has a name then, or one of the rest. -/
theorem Package.of_mem_harvest {p q : Package} {rest : Harvest}
    (h : p ∈ (q.harvest rest).packages) :
    (p = q ∧ p.name ≠ none) ∨ p ∈ rest.packages := by
  unfold Package.harvest at h
  split at h
  · rename_i hv
    rcases List.mem_append.1 h with h | h
    · obtain rfl := List.mem_singleton.1 h
      -- The verdict on a record without a name is another.
      refine .inl ⟨rfl, fun hn => ?_⟩
      simp [Package.verdict, hn] at hv
    · exact .inr h
  · simp at h
  · exact .inr h
  · exact .inr h

namespace Session

variable {fresh s s' : Session} {line : Text} {lines : List Text} {last : Option Error}

/-- The line that ends a record hands the record over, and a fresh session reads on. -/
theorem harvest_of_ended (h : s.Step line s' .ended) :
    s.harvest fresh (line :: lines) last =
      s'.finish.package.harvest (fresh.harvest fresh lines last) := by
  obtain ⟨hs, ho⟩ := h.feed_eq
  rw [harvest, ho, hs]

/-- A refused line ends the harvest, and the record that it stands in is lost. -/
theorem harvest_of_refused {cause : Error} (h : s.Step line s' (.refused cause)) :
    s.harvest fresh (line :: lines) last = { failure := some cause } := by
  obtain ⟨hs, ho⟩ := h.feed_eq
  rw [harvest, ho]

/-- With any other line the harvest is that of the session after it. -/
theorem harvest_of_goesOn {o : Outcome} (h : s.Step line s' o) (ho : o = .goesOn ∨ o = .malformed) :
    s.harvest fresh (line :: lines) last = s'.harvest fresh lines last := by
  obtain ⟨hs, ho'⟩ := h.feed_eq
  -- A malformed value is noted, and the record goes on.
  rcases ho with rfl | rfl <;> rw [harvest, ho', hs]

/-- An empty line ends a record as the end of the input does. -/
theorem harvest_blank (hs : s.finished = false) :
    s.harvest fresh ([] :: lines) last =
      s.finish.package.harvest (fresh.harvest fresh lines last) := by
  have hstep : s.Step [] { s.close with phase := .finished } .ended := .blank hs rfl rfl
  rw [harvest_of_ended hstep]
  rfl

/-- **Invariants of a run.** What holds of the sessions that records start with, and is kept by reading
any of the lines, holds of the session in which a package was finished. -/
theorem of_mem_harvest {I : Session → Prop} {p : Package}
    (hstep : ∀ line ∈ lines, ∀ s s' o, I s → s.Step line s' o → I s') (hs : I s) (hfresh : I fresh)
    (hp : p ∈ (s.harvest fresh lines last).packages) :
    ∃ s', I s' ∧ s'.finish.package = p ∧ p.name ≠ none := by
  induction lines generalizing s with
  | nil =>
    cases last with
    | none =>
      rcases Package.of_mem_harvest hp with ⟨rfl, hname⟩ | hp
      · exact ⟨s, hs, rfl, hname⟩
      · simp at hp
    | some cause => simp [harvest] at hp
  | cons line lines ih =>
    have hlater : ∀ l ∈ lines, ∀ s s' o, I s → s.Step l s' o → I s' := fun l hl =>
      hstep l (List.mem_cons_of_mem line hl)
    have hread := s.feed_step line
    have hs' := hstep line List.mem_cons_self s _ _ hs hread
    rw [harvest] at hp
    split at hp
    · -- The package is the record that ends here, or is among those that fresh sessions read.
      rcases Package.of_mem_harvest hp with ⟨rfl, hname⟩ | hp
      · exact ⟨_, hs', rfl, hname⟩
      · exact ih hlater hfresh hp
    · simp at hp
    · exact ih hlater hs' hp
    · exact ih hlater hs' hp

/-! ### Reading on -/

/-- Reading lines that all go on with the record. -/
inductive Reads : Session → List Text → Session → Prop
  | nil (s : Session) : Reads s [] s
  | cons {s s' s'' : Session} {line : Text} {lines : List Text} {o : Outcome}
    (h : s.Step line s' o) (ho : o = .goesOn ∨ o = .malformed) (hr : Reads s' lines s'') :
    Reads s (line :: lines) s''

variable {s'' : Session} {more more' : List Text}

/-- Lines that go on with the record can be read in parts. -/
theorem Reads.append (h : s.Reads lines s') (h' : s'.Reads more s'') :
    s.Reads (lines ++ more) s'' := by
  induction h with
  | nil => exact h'
  | cons h ho _ ih => exact .cons h ho (ih h')

theorem Reads.single {o : Outcome} (h : s.Step line s' o) (ho : o = .goesOn ∨ o = .malformed) :
    s.Reads [line] s' :=
  .cons h ho (.nil s')

/-- The harvest is that of the lines after those that were read. -/
theorem Reads.harvest (h : s.Reads lines s') :
    s.harvest fresh (lines ++ more) last = s'.harvest fresh more last := by
  induction h with
  | nil => rfl
  | cons h ho _ ih => rw [List.cons_append, harvest_of_goesOn h ho, ih]

/-- Lines that give the same to every session that has not ended its record give the same behind other
lines. -/
theorem harvest_append_congr (hs : s.finished = false) (hfresh : fresh.finished = false)
    (h : ∀ s : Session, s.finished = false →
      s.harvest fresh more last = s.harvest fresh more' last) :
    s.harvest fresh (lines ++ more) last = s.harvest fresh (lines ++ more') last := by
  induction lines generalizing s with
  | nil => exact h s hs
  | cons line lines ih =>
    obtain ⟨s', o, hstep⟩ := exists_step s line
    rw [List.cons_append, List.cons_append]
    -- The common lines are read alike, up to one that is refused. So what matters is where they leave a
    -- session, which reads the rest in the middle of a record.
    cases o with
    | ended => rw [harvest_of_ended hstep, harvest_of_ended hstep, ih hfresh]
    | refused cause => rw [harvest_of_refused hstep, harvest_of_refused hstep]
    | goesOn | malformed =>
      rw [harvest_of_goesOn hstep (by simp), harvest_of_goesOn hstep (by simp),
        ih (hstep.not_finished (by simp))]

/-! ### One record -/

variable {source : Source}

/-- A run without a line leaves the session as it is and tells what the source answered. -/
theorem runFrom_of_stop (log : List Event) (h : ∀ line, source.next.pull ≠ .line line) :
    (s.runFrom source log).session = s ∧ (s.runFrom source log).source = source.next.source ∧
      (s.runFrom source log).failure = source.next.pull.cause? := by
  rw [runFrom]
  split <;> rename_i hn
  · rw [hn]
    exact ⟨rfl, rfl, rfl⟩
  · rw [hn]
    exact ⟨rfl, rfl, rfl⟩
  · exact absurd (congrArg Pulled.pull hn) (h _)

/-- A run that gets a line goes on with what the session makes of it. -/
theorem runFrom_of_line (log : List Event) (h : source.next.pull = .line line) :
    ∃ log', s.runFrom source log = match (s.feed line).outcome with
      | .ended =>
        { session := (s.feed line).session, source := source.next.source, events := log' }
      | .refused cause =>
        { session := (s.feed line).session, source := source.next.source, failure := some cause
          events := log' }
      | .goesOn | .malformed => (s.feed line).session.runFrom source.next.source log' := by
  rw [runFrom]
  split <;> rename_i hn
  · simp [hn] at h
  · simp [hn] at h
  · rw [hn] at h ⊢
    cases h
    split <;> rename_i hfeed <;> rw [hfeed] <;> exact ⟨_, rfl⟩

end Session

/-! ### The loop over records -/

/-- What a run makes of its record. -/
def Run.reading (r : Run) : Reading :=
  { verdict := r.verdict.1, package := r.session.finish.package, source := r.source
    events := r.events ++ r.verdict.2 }

/-- The trace that goes on from the reading of one record, with these items before it, the latest
first. -/
def Reading.proceed (r : Reading) (requested : FieldSet) (config : Config) (done : List Item) :
    Trace :=
  let done := (r.events.map .event).reverse ++ done
  match r.verdict with
  | .record => readAllFrom requested config r.source (.package r.package :: done)
  | .empty => readAllFrom requested config r.source done
  | .failed =>
    { items := done.reverse, failure := some (.recordsLost r.source.name r.source.line) }
  | .stopped cause => { items := done.reverse, failure := some cause }

section Loop

variable {requested : FieldSet} {config : Config} {source after : Source} {done : List Item}
variable {lines : List Text} {stop : Pull}

/-- The loop over records ends where nothing is left. -/
theorem readAllFrom_of_exhausted (hx : source.exhausted = true) :
    readAllFrom requested config source done = { items := done.reverse } := by
  rw [readAllFrom, dif_pos hx]

/-- Where something is left, the loop reads a record and goes on with what its verdict says. -/
theorem readAllFrom_of_not_exhausted (hx : source.exhausted = false) :
    readAllFrom requested config source done =
      ((Session.start {} requested config).run source).reading.proceed requested config done := by
  rw [readAllFrom, dif_neg (by simp [hx])]
  unfold Reading.proceed
  simp only [readRecord, Run.reading]
  split <;> rename_i hv <;> rw [hv]

/-- The packages among some items, the latest of which comes first. -/
def packagesOf (done : List Item) : List Package := ({ items := done.reverse } : Trace).packages

theorem packagesOf_events (events : List Event) (done : List Item) :
    packagesOf ((events.map .event).reverse ++ done) = packagesOf done := by
  simp [packagesOf, Trace.packages, List.filterMap_append, List.filterMap_map]

/-- A package comes behind those that were handed over before it. -/
theorem packagesOf_package (p : Package) (done : List Item) :
    packagesOf (.package p :: done) = packagesOf done ++ [p] := by
  simp [packagesOf, Trace.packages, List.filterMap_append]

theorem harvest_items (done : List Item) (failure : Option Error) :
    ({ items := done.reverse, failure } : Trace).harvest =
      Harvest.after (packagesOf done) { failure } := by
  simp [Trace.harvest, Harvest.after, packagesOf, Trace.packages]

/-- The failure of a reader whose source answers with this instead of a line. A failure of the source
is told as the loss of the records that follow. -/
def Pull.failure? (stop : Pull) (after : Source) : Option Error :=
  match stop with
  | .fault cause =>
    some (if cause.isReadFailure then .recordsLost after.name after.line else cause)
  | .line _ | .done => none

/-- What goes on from a finished record is its harvest, if the rest is known. -/
theorem harvest_proceed {r : Run} {rest : Harvest} (hf : r.failure = none)
    (hrest : ∀ done, (readAllFrom requested config r.source done).harvest =
      rest.after (packagesOf done)) :
    (r.reading.proceed requested config done).harvest =
      (r.session.finish.package.harvest rest).after (packagesOf done) := by
  -- Without a failure it is the record alone that decides the verdict.
  have hv : r.verdict = r.session.finish.package.verdict := by rw [Run.verdict, hf]
  unfold Reading.proceed Run.reading Package.harvest
  simp only [hv]
  cases hp : r.session.finish.package.verdict.1 with
  | record =>
    simp only
    rw [hrest, packagesOf_package, packagesOf_events, Harvest.after_after]
  | empty =>
    simp only
    rw [hrest, packagesOf_events]
  | failed =>
    -- Only a source fails. The verdict on a record that was finished is another.
    unfold Package.verdict at hp
    repeat' split at hp
    all_goals cases hp
  | stopped cause =>
    simp only
    rw [harvest_items, packagesOf_events]

/-- A run that fails gives no record and ends the reading. -/
theorem harvest_proceed_failure {r : Run} {cause : Error} (hf : r.failure = some cause) :
    (r.reading.proceed requested config done).harvest =
      Harvest.after (packagesOf done) { failure := (Pull.fault cause).failure? r.source } := by
  -- An error of a source is reported as a loss of records, and any other error as itself.
  cases hc : cause.isReadFailure with
  | true =>
    have hv : r.verdict = (.failed, [.readFailed cause]) := by simp [Run.verdict, hf, hc]
    unfold Reading.proceed Run.reading
    simp only [hv]
    rw [harvest_items, packagesOf_events, Pull.failure?, hc, if_pos rfl]
  | false =>
    have hv : r.verdict = (.stopped cause, []) := by simp [Run.verdict, hf, hc]
    unfold Reading.proceed Run.reading
    simp only [hv]
    rw [harvest_items, packagesOf_events, Pull.failure?, hc, if_neg Bool.false_ne_true]

/-- A run that gets no line is the last one. A source that is done leaves the record as it is, and one that
fails makes the reader drop it. -/
theorem harvest_runFrom_of_stop (s : Session) (log : List Event) (done : List Item)
    (h : source.next.pull = stop) (hl : ∀ line, stop ≠ .line line) :
    ((s.runFrom source log).reading.proceed requested config done).harvest =
      (s.harvest (.start {} requested config) [] (stop.failure? source.next.source)).after
        (packagesOf done) := by
  obtain ⟨hsession, hsource, hfailure⟩ := s.runFrom_of_stop log fun line => h ▸ hl line
  rw [h] at hfailure
  cases stop with
  | line line => exact absurd rfl (hl line)
  | done =>
    -- The loop over records sees that the source is exhausted.
    have hrest : ∀ done, (readAllFrom requested config (s.runFrom source log).source done).harvest =
        Harvest.after (packagesOf done) {} := by
      intro done
      rw [hsource, readAllFrom_of_exhausted (Source.exhausted_of_next_done h), harvest_items]
    rw [harvest_proceed hfailure hrest, hsession]
    rfl
  | fault cause =>
    rw [harvest_proceed_failure hfailure, hsource]
    rfl

/-- The loop over records harvests what the run of its first record does. Where there is no first record, since
the source is exhausted, there are no lines either. -/
theorem harvest_readAllFrom (hd : source.Delivers lines stop after)
    (hrun : ∀ done, (((Session.start {} requested config).run source).reading.proceed
        requested config done).harvest =
      ((Session.start {} requested config).harvest (.start {} requested config) lines
        (stop.failure? after)).after (packagesOf done)) (done : List Item) :
    (readAllFrom requested config source done).harvest =
      ((Session.start {} requested config).harvest (.start {} requested config) lines
        (stop.failure? after)).after (packagesOf done) := by
  cases hx : source.exhausted with
  | true =>
    obtain ⟨rfl, rfl⟩ := hd.eq_nil_of_exhausted hx
    rw [readAllFrom_of_exhausted hx, harvest_items]
    rfl
  | false =>
    rw [readAllFrom_of_not_exhausted hx]
    exact hrun done

/-- **The reader harvests what its source delivers**, from any line of a record on. -/
theorem harvest_runFrom (hd : source.Delivers lines stop after) :
    ∀ (s : Session) (log : List Event) (done : List Item),
      ((s.runFrom source log).reading.proceed requested config done).harvest =
        (s.harvest (.start {} requested config) lines (stop.failure? after)).after
          (packagesOf done) := by
  induction hd with
  | stop h hl ha =>
    intro s log done
    rw [← ha]
    exact harvest_runFrom_of_stop s log done h hl
  | @line source after stop line lines h hd ih =>
    intro s log done
    -- Whatever is left after the line is read by a fresh session, which the induction covers: it is for
    -- every session and log, so for the next line of this record as for the first line of another one.
    have hrest : ∀ done, (readAllFrom requested config source.next.source done).harvest =
        ((Session.start {} requested config).harvest (.start {} requested config) lines
          (stop.failure? after)).after (packagesOf done) := harvest_readAllFrom hd (ih _ [])
    have hstep := s.feed_step line
    obtain ⟨log', hrun⟩ := s.runFrom_of_line log h
    cases ho : (s.feed line).outcome with
    | ended =>
      rw [ho] at hrun hstep
      rw [hrun, harvest_proceed rfl hrest, Session.harvest_of_ended hstep]
    | refused cause =>
      rw [ho] at hrun hstep
      rw [hrun, harvest_proceed_failure rfl, Session.harvest_of_refused hstep, Pull.failure?,
        if_neg (by simp [hstep.not_isReadFailure])]
    | goesOn =>
      rw [ho] at hrun
      rw [hrun, ih, Session.harvest_of_goesOn hstep (.inl ho)]
    | malformed =>
      rw [ho] at hrun
      rw [hrun, ih, Session.harvest_of_goesOn hstep (.inr ho)]

/-- **The reader harvests what its source delivers.** -/
theorem harvest_readAll (hd : source.Delivers lines stop after) :
    (readAll requested config source).harvest =
      (Session.start {} requested config).harvest (.start {} requested config) lines
        (stop.failure? after) :=
  harvest_readAllFrom hd (harvest_runFrom hd _ []) []

end Loop

/-! ### Texts -/

/-- The failure that ends the reading of a text with a line over the limit. -/
def Text.lost? (limit : Nat) (t : Text) : Option Error :=
  if t.rows.all (·.length ≤ limit) then none
  else some (.recordsLost "<stream>".toList ((t.within limit).length + 1))

theorem Text.within_of_all {limit : Nat} {t : Text} (h : ∀ line ∈ t.rows, line.length ≤ limit) :
    t.within limit = t.rows :=
  List.takeWhile_eq_self_iff.2 fun line hl => decide_eq_true (h line hl)

/-- Nothing is lost just where no row is over the limit. -/
theorem Text.lost?_eq_none_iff {limit : Nat} {t : Text} :
    t.lost? limit = none ↔ ∀ line ∈ t.rows, line.length ≤ limit := by
  rw [lost?, ite_eq_left_iff, List.all_eq_true]
  simp only [decide_eq_true_eq, reduceCtorEq, imp_false, not_not]

section Text

variable {requested : FieldSet} {config : Config} {t : Text}

/-- **The harvest of a text** is that of its rows within the line limit, if the limit can be
counted. -/
theorem harvest_readText (hc : Source.isCountable config.lineLimit = true) :
    (readText requested config t).harvest =
      (Session.start {} requested config).harvest (.start {} requested config)
        (t.within config.lineLimit) (t.lost? config.lineLimit) := by
  obtain ⟨after, hd, hname, hline⟩ := Source.delivers_text
    (s := { supply := .stream { text := t } config.lineLimit }) rfl rfl hc
  -- The answer behind the rows is a failure just where a row is over the limit.
  have hlost : ((Source.lastAnswer { supply := .stream { text := t } config.lineLimit }
      config.lineLimit t).failure? after) = t.lost? config.lineLimit := by
    unfold Source.lastAnswer Text.lost?
    cases hall : t.rows.all (·.length ≤ config.lineLimit) with
    | true => rfl
    | false => simp [Pull.failure?, Error.isReadFailure, hname, hline hall]
  rw [← hlost]
  exact harvest_readAll hd

/-- A limit that cannot be counted is refused before anything is read. -/
theorem harvest_readText_of_not_countable (hc : Source.isCountable config.lineLimit = false) :
    (readText requested config t).harvest =
      { failure := some (.lookaheadOutOfRange .memory) } := by
  let source : Source := { supply := .stream { text := t } config.lineLimit }
  have hnext : source.next = { pull := .fault (.lookaheadOutOfRange .memory), source } := by
    simp [source, Source.next, Source.nextOfStream, hc]
  have hd : source.Delivers [] (.fault (.lookaheadOutOfRange .memory)) source :=
    .stop (by rw [hnext]) (by simp) (by rw [hnext])
  exact harvest_readAll hd

/-- A failure that follows the lines is never lost. -/
theorem Session.harvest_failure_ne_none (s fresh : Session) (lines : List Text) (e : Error) :
    (s.harvest fresh lines (some e)).failure ≠ none := by
  induction lines generalizing s with
  | nil => simp [harvest]
  | cons line lines ih =>
    rw [harvest]
    -- Only a record whose version cannot be written, or a refused line, could come before the failure, and
    -- each is one itself.
    split
    · unfold Package.harvest
      split
      · exact ih fresh
      · simp
      · exact ih fresh
      · exact ih fresh
    · simp
    · exact ih _
    · exact ih _

/-- **When a text is read to its end.** The line limit can be counted, no row is over it, and the rows
alone give these packages and no failure. -/
theorem readText_eq_ok_iff {ps : List Package} :
    (readText requested config t).packages? = .ok ps ↔
      Source.isCountable config.lineLimit = true ∧
      (∀ line ∈ t.rows, line.length ≤ config.lineLimit) ∧
      (Session.start {} requested config).harvest (.start {} requested config) t.rows none =
        { packages := ps } := by
  rw [Trace.packages?_eq_ok]
  constructor
  · intro h
    have hc : Source.isCountable config.lineLimit = true := by
      cases hc : Source.isCountable config.lineLimit with
      | true => rfl
      | false => simp [harvest_readText_of_not_countable hc] at h
    rw [harvest_readText hc] at h
    -- A row over the limit would be a failure behind the rows, and such a failure is kept.
    have hall : ∀ line ∈ t.rows, line.length ≤ config.lineLimit := by
      rw [← Text.lost?_eq_none_iff]
      cases hlost : t.lost? config.lineLimit with
      | none => rfl
      | some e =>
        rw [hlost] at h
        exact absurd (by rw [h]) (Session.harvest_failure_ne_none _ _ _ e)
    rw [Text.within_of_all hall, Text.lost?_eq_none_iff.2 hall] at h
    exact ⟨hc, hall, h⟩
  · rintro ⟨hc, hall, h⟩
    rw [harvest_readText hc, Text.within_of_all hall, Text.lost?_eq_none_iff.2 hall, h]

end Text

end ControlFile

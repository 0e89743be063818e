import ControlFile.Proofs.Attribution
import ControlFile.Proofs.Interruption
import Mathlib.Data.List.Chain

/-!
# How the lines of a source are divided into records

Reading a source to its end is a row of calls, each of which reads one record with a fresh session. `calls`
lists them, with the source that each was given and with the lines that it fed to its session, its block;
the trace of the reader is put together from them (`readAll_eq_ofCalls`).

`Divides` says what the blocks have to do with the lines of the source. A call either takes the next lines
up to the first that ends the record, or it takes all that are left. That the calls of a reader divide the
lines which its source delivers (`divides_calls`) is the one induction over the reader; what is asked of the
blocks follows by induction on the division alone:

* no line is lost or read twice (`Divides.flatMap_block`), and there is at most one call more than there are
  lines (`Divides.length_le`);
* every block but the last ends with its only line that ends a record (`Divides.endsRecord`);
* a call gives a package if its block names one, and nothing otherwise, unless its source has failed
  (`Call.Sound`).

`readAll_calls` puts this together for a text none of whose lines is refused.
-/

namespace ControlFile

namespace Session

/-- What each of these lines means for the record of the session, which reads them in order. -/
def outcomes : Session → List Text → List Outcome
  | _, [] => []
  | s, line :: lines => (s.feed line).outcome :: (s.feed line).session.outcomes lines

/-- The lines that a run feeds to the session. -/
def taken (s : Session) (source : Source) : List Text :=
  match _h : source.next with
  | ⟨.done, _, _⟩ | ⟨.fault _, _, _⟩ => []
  | ⟨.line line, after, _⟩ =>
    match (s.feed line).outcome with
    | .ended | .refused _ => [line]
    | .goesOn | .malformed => line :: (s.feed line).session.taken after
termination_by source.remaining
decreasing_by
  all_goals
    have hx : source.exhausted = false := by
      cases hx : source.exhausted with
      | false => rfl
      | true => simp [Source.next_of_exhausted hx] at _h
    have := Source.remaining_next_lt hx (fun e => by simp [_h])
    rwa [_h] at this

end Session

/-- A call of the reader of one record. -/
structure Call where
  /-- The source that it is given. -/
  source : Source
  /-- The lines that it feeds to its session. -/
  block : List Text
  /-- What it gives. -/
  reading : Reading

/-- The error with which the reading of all records ends after this one, if it does. -/
def Reading.failure? (r : Reading) : Option Error :=
  match r.verdict with
  | .record | .empty => none
  | .failed => some (.recordsLost r.source.name r.source.line)
  | .stopped cause => some cause

/-- What the reading of one record adds to a trace. -/
def Reading.items (r : Reading) : List Item :=
  r.events.map .event ++ if r.verdict = .record then [.package r.package] else []

section

variable (m : FieldSet) (c : Config)

/-- The call with a fresh record for this source. -/
def Call.ofSource (source : Source) : Call where
  source := source
  block := (Session.start {} m c).taken source
  reading := readRecord {} m c source

/-- The calls that read a source to its end. -/
def calls (source : Source) : List Call :=
  if _hx : source.exhausted then []
  else
    let call := Call.ofSource m c source
    match _hv : call.reading.verdict with
    | .record | .empty => call :: calls call.reading.source
    | .failed | .stopped _ => [call]
termination_by source.remaining
decreasing_by
  · exact remaining_readRecord_lt (by simpa using _hx) (.inl _hv)
  · exact remaining_readRecord_lt (by simpa using _hx) (.inr _hv)

/-- The trace of some calls, one after the other. -/
def Trace.ofCalls (cs : List Call) : Trace where
  items := cs.flatMap (·.reading.items)
  failure := cs.findSome? (·.reading.failure?)

end

variable {m : FieldSet} {c : Config} {source : Source}

/-- The reader makes these calls, whatever came before. -/
theorem readAllFrom_eq_ofCalls (done : List Item) :
    readAllFrom m c source done =
      { items := done.reverse ++ (Trace.ofCalls (calls m c source)).items
        failure := (Trace.ofCalls (calls m c source)).failure } := by
  have hproceed {source : Source} (hx : ¬source.exhausted = true) (done : List Item) :
      readAllFrom m c source done = (Call.ofSource m c source).reading.proceed m c done :=
    readAllFrom_of_not_exhausted (Bool.eq_false_iff.2 hx)
  fun_induction calls m c source generalizing done with
  | case1 source hx =>
    rw [readAllFrom_of_exhausted hx]
    simp [Trace.ofCalls]
  | case2 source hx call hv ih | case3 source hx call hv ih =>
    -- the reading goes on behind what this call adds
    rw [hproceed hx, Reading.proceed]
    simp only [show (Call.ofSource m c source).reading.verdict = _ from hv]
    rw [show (Call.ofSource m c source).reading.source = call.reading.source from rfl, ih]
    simp [Trace.ofCalls, Reading.items, Reading.failure?, hv, call]
  | case4 source hx call hv | case5 source hx call cause hv =>
    rw [hproceed hx, Reading.proceed]
    simp only [show (Call.ofSource m c source).reading.verdict = _ from hv]
    simp [Trace.ofCalls, Reading.items, Reading.failure?, hv, call]

/-- **The trace of a reader is that of its calls.** -/
theorem readAll_eq_ofCalls : readAll m c source = Trace.ofCalls (calls m c source) :=
  readAllFrom_eq_ofCalls []

/-- The reading of one record adds a package if it gives one, behind its events. -/
theorem Reading.packages_items (r : Reading) :
    ({ items := r.items } : Trace).packages = if r.verdict = .record then [r.package] else [] := by
  unfold items Trace.packages
  split <;> simp [List.filterMap_append, List.filterMap_map]

/-- The packages of a trace are those of the calls that gave one, in order. -/
theorem Trace.packages_ofCalls (cs : List Call) :
    (ofCalls cs).packages =
      (cs.filter (·.reading.verdict = .record)).map (·.reading.package) := by
  induction cs with
  | nil => rfl
  | cons call cs ih =>
    -- The items of the first call stand in front of those of the others.
    have hcons : (ofCalls (call :: cs)).packages =
        ({ items := call.reading.items } : Trace).packages ++ (ofCalls cs).packages :=
      List.filterMap_append
    rw [hcons, Reading.packages_items, ih, List.filter_cons]
    by_cases hv : call.reading.verdict = .record
    · rw [if_pos hv, if_pos (decide_eq_true hv)]
      rfl
    · rw [if_neg hv, if_neg (by simpa using hv)]
      rfl

/-! ### What a run takes -/

namespace Session

variable {s s' : Session} {line : Text} {lines block : List Text} {stop : Pull} {after : Source}

theorem taken_of_stop (h : ∀ line, source.next.pull ≠ .line line) : s.taken source = [] := by
  rw [taken]
  split
  · rfl
  · rfl
  · rename_i hn
    exact absurd (congrArg Pulled.pull hn) (h _)

/-- A line is fed whatever it does to the record, and others follow if the record goes on. -/
theorem taken_of_line (h : source.next.pull = .line line) :
    s.taken source = match (s.feed line).outcome with
      | .ended | .refused _ => [line]
      | .goesOn | .malformed => line :: (s.feed line).session.taken source.next.source := by
  rw [taken]
  split
  · rename_i hn
    rw [hn] at h
    cases h
  · rename_i hn
    rw [hn] at h
    cases h
  · rename_i hn
    rw [hn] at h ⊢
    obtain rfl := Pull.line.inj h
    rfl

/-- What a run makes of the lines ahead, of which it takes a block: the block ends the record, or it is
all that the source had. -/
inductive Takes (s : Session) (lines : List Text) (stop : Pull) (after : Source) (r : Run) :
    List Text → Prop
  | record {block rest : List Text} (hlines : lines = block ++ rest)
    (hfed : s.feedAll block = .ok r.session) (hended : r.session.finished = true)
    (hfailure : r.failure = none) (hrest : r.source.Delivers rest stop after) :
    Takes s lines stop after r block
  | all (hfed : s.feedAll lines = .ok r.session) (hopen : r.session.finished = false)
    (hfailure : r.failure = stop.cause?) (hafter : r.source = after) : Takes s lines stop after r lines

/-- A line with which the record goes on comes before what the rest of the run takes. -/
theorem Takes.cons {r : Run} {o : Outcome} (h : s'.Takes lines stop after r block)
    (hstep : s.Step line s' o) (ho : ∀ cause, o ≠ .refused cause) :
    s.Takes (line :: lines) stop after r (line :: block) := by
  have hfed {block : List Text} (h : s'.feedAll block = .ok r.session) :
      s.feedAll (line :: block) = .ok r.session := feedAll_cons_eq_ok.2 ⟨s', o, hstep, ho, h⟩
  cases h with
  | record hlines h hended hfailure hrest =>
    exact .record (congrArg (line :: ·) hlines) (hfed h) hended hfailure hrest
  | all h hopen hfailure hafter => exact .all (hfed h) hopen hfailure hafter

/-- **One run.** Of lines that are not refused, a run takes those up to the end of the record. -/
theorem takes_taken (hd : source.Delivers lines stop after) (hs : s.finished = false)
    (hread : ∀ line ∈ lines, line.refusal? s.mask = none) (log : List Event) :
    s.Takes lines stop after (s.runFrom source log) (s.taken source) := by
  induction hd generalizing s log with
  | @stop source after stop h hl ha =>
    -- the source has no line left, and the block is empty
    have hno (line : Text) : source.next.pull ≠ .line line := h ▸ hl line
    obtain ⟨hsession, hsource, hfailure⟩ := s.runFrom_of_stop log hno
    rw [taken_of_stop hno]
    refine .all ?_ ?_ ?_ ?_
    · rw [hsession]
      rfl
    · rw [hsession]
      exact hs
    · rw [hfailure, h]
    · rw [hsource, ha]
  | @line source after stop line lines h hd ih =>
    have hstep := s.feed_step line
    obtain ⟨log', hrun⟩ := s.runFrom_of_line log h
    have hline := hread line List.mem_cons_self
    have hlines : ∀ l ∈ lines, l.refusal? (s.feed line).session.mask = none := by
      rw [hstep.mask_eq]
      exact fun l hl => hread l (List.mem_cons_of_mem line hl)
    rw [taken_of_line h, hrun]
    cases ho : (s.feed line).outcome with
    | ended =>
      rw [ho] at hstep
      have hlines : line :: lines = [line] ++ lines := rfl
      refine .record hlines ?_ ?_ rfl hd
      · exact feedAll_cons_eq_ok.2 ⟨_, _, hstep, by simp, rfl⟩
      · obtain ⟨-, hended⟩ | ⟨hgoesOn, -⟩ := hstep.ended_or_goesOn (by simp)
        · exact hended
        · simp at hgoesOn
    | refused cause =>
      rw [(refused_iff hs).1 ho] at hline
      cases hline
    | goesOn | malformed =>
      -- the fields that are read stay the same, so the lines behind are not refused either
      rw [ho] at hstep
      exact (ih (hstep.not_finished (by simp)) hlines log').cons hstep (by simp)

/-- Lines that end a record do so with the last of them only. -/
theorem outcomes_of_feedAll (h : s.feedAll block = .ok s') (hs : s.finished = false)
    (hs' : s'.finished = true) :
    ∃ before, s.outcomes block = before ++ [.ended] ∧ .ended ∉ before := by
  induction block generalizing s with
  | nil =>
    obtain rfl := Except.ok.inj h
    rw [hs] at hs'
    cases hs'
  | cons line block ih =>
    obtain ⟨s₁, o, hstep, ho, hblock⟩ := feedAll_cons_eq_ok.1 h
    have houtcomes : s.outcomes (line :: block) = o :: s₁.outcomes block := by
      rw [outcomes, hstep.feed_eq.1, hstep.feed_eq.2]
    rw [houtcomes]
    obtain ⟨rfl, hended⟩ | ⟨hgoesOn, hopen⟩ := hstep.ended_or_goesOn ho
    · -- a session whose record has ended reads no other line
      rw [(eq_nil_of_feedAll hended hblock).1]
      exact ⟨[], rfl, List.not_mem_nil⟩
    · obtain ⟨before, hbefore, hnot⟩ := ih hblock hopen
      refine ⟨o :: before, by rw [hbefore]; rfl, ?_⟩
      rw [List.mem_cons, not_or]
      exact ⟨by rintro rfl; simp at hgoesOn, hnot⟩

/-- No line can give a record an epoch that is too long to be written. -/
theorem fits_feedAll (h : s.feedAll block = .ok s') (hs : Numeral.fits s.package.epoch = true) :
    Numeral.fits s'.package.epoch = true := by
  induction block generalizing s with
  | nil =>
    obtain rfl := Except.ok.inj h
    exact hs
  | cons line block ih =>
    obtain ⟨s₁, o, hstep, -, hblock⟩ := feedAll_cons_eq_ok.1 h
    exact ih hblock (hstep.fits hs)

end Session

/-! ### The verdict on a block -/

/-- Whether a line names its package: it is the header of that field. -/
def Text.namesPackage (line : Text) : Bool := Header.heads Field.package.name line

/-- A line gives its package a name just where it is the header of that field. -/
theorem Text.isSome_valueIn?_package {line : Text} :
    (Field.package.valueIn? line).isSome = line.namesPackage := by
  -- only one recognised name is that of this field
  have hname : ∀ h ∈ Header.catalogue, h.field = .package → h.name = Field.package.name := by decide
  cases hn : line.namesPackage with
  | true =>
    have hl : Header.ofLine? line = some ⟨Field.package.name, .package⟩ :=
      Header.ofLine?_eq_some_iff.2 ⟨by decide, hn⟩
    rw [Field.valueIn?_of_ofLine? hl, if_pos rfl]
    rfl
  | false =>
    cases hl : Header.ofLine? line with
    | none =>
      rw [Field.valueIn?_of_ofLine?_eq_none hl]
      rfl
    | some h =>
      obtain ⟨hm, hheads⟩ := Header.ofLine?_eq_some_iff.1 hl
      have hf : h.field ≠ .package := by
        intro hf
        rw [hname h hm hf, show Header.heads _ line = false from hn] at hheads
        cases hheads
      rw [Field.valueIn?_of_ofLine? hl, if_neg hf]
      rfl

/-- A record whose epoch is short enough is a package exactly if it has a name. -/
theorem Package.verdict_of_fits {p : Package} (hp : Numeral.fits p.epoch = true) :
    p.verdict.1 = if p.name.isSome then .record else .empty := by
  -- what could not be told of would be the failure of its harvest
  have hharvest := failure_harvest_of_fits hp {}
  unfold Package.harvest at hharvest
  unfold verdict at hharvest ⊢
  cases hname : p.name with
  | none => rfl
  | some name =>
    cases hversion : p.fullVersionText? with
    | ok version => rfl
    | error cause => simp [hname, hversion] at hharvest

/-- Whether the block names a package, and that field is read. -/
def Call.hasName (m : FieldSet) (c : Config) (call : Call) : Bool :=
  .package ∈ FieldSet.effective m c.forced ∧ call.block.any Text.namesPackage

/-- A record has a name if its field is read and one of the lines gives it. -/
theorem isSome_name_of_feedAll {s : Session} {block : List Text}
    (h : (Session.start {} m c).feedAll block = .ok s) :
    s.finish.package.name.isSome =
      (decide (.package ∈ FieldSet.effective m c.forced) && block.any Text.namesPackage) := by
  -- the name is the last of the values that the block has for it
  rw [show s.finish.package.name = _ from getText_feedAll h .name]
  show ((Field.package.valuesIn _ block).getLast?).isSome = _
  unfold Field.valuesIn
  split
  · rename_i hm
    rw [Bool.eq_iff_iff]
    simp [hm, ← Text.isSome_valueIn?_package, Option.isSome_iff_ne_none]
  · rename_i hm
    simp [hm]

/-! ### The division of the lines -/

/-- The block ends with its only line that ends a record. -/
def Call.EndsRecord (m : FieldSet) (c : Config) (call : Call) : Prop :=
  ∃ before, (Session.start {} m c).outcomes call.block = before ++ [.ended] ∧ .ended ∉ before

/-- What a call does with its block: it feeds it to a fresh session, all of whose lines are read, and gives
the package of the session if the block names one. Only the verdict depends on whether the source has
failed. -/
structure Call.Sound (m : FieldSet) (c : Config) (call : Call) : Prop where
  reading_eq : call.reading = readRecord {} m c call.source
  fed : ∃ s, (Session.start {} m c).feedAll call.block = .ok s ∧
    call.reading.package = s.finish.package
  verdict : call.reading.verdict = .failed ∨
    call.reading.verdict = if call.hasName m c then .record else .empty

/-- These calls take these lines, one block after the other. -/
inductive Divides (m : FieldSet) (c : Config) : List Text → List Call → Prop
  /-- Nothing is left to be read. -/
  | nil : Divides m c [] []
  /-- The last call takes all that is left. -/
  | last {call : Call} (hsound : call.Sound m c) : Divides m c call.block [call]
  /-- A call takes the lines of one record, and others take the rest. -/
  | record {call : Call} {rest : List Text} {cs : List Call} (hsound : call.Sound m c)
    (hends : call.EndsRecord m c) (hverdict : call.reading.verdict ≠ .failed)
    (hrest : Divides m c rest cs) : Divides m c (call.block ++ rest) (call :: cs)

namespace Divides

variable {lines : List Text} {cs : List Call}

/-- **No line is lost, and none is read twice.** -/
theorem flatMap_block (h : Divides m c lines cs) : cs.flatMap (·.block) = lines := by
  induction h with
  | nil => rfl
  | last => simp
  | record _ _ _ _ ih => rw [List.flatMap_cons, ih]

theorem sound (h : Divides m c lines cs) : ∀ call ∈ cs, call.Sound m c := by
  induction h with
  | nil => simp
  | last hsound => simpa using hsound
  | record hsound _ _ _ ih => exact List.forall_mem_cons.2 ⟨hsound, ih⟩

/-- **Every block but the last is a whole record.** -/
theorem endsRecord (h : Divides m c lines cs) :
    ∀ call ∈ cs.dropLast, call.EndsRecord m c ∧ call.reading.verdict ≠ .failed := by
  induction h with
  | nil | last => simp
  | @record call rest cs _ hends hverdict _ ih =>
    cases cs with
    | nil => simp
    | cons call' cs => exact List.forall_mem_cons.2 ⟨⟨hends, hverdict⟩, ih⟩

/-- **There is at most one call more than there are lines**, since only the last one may take none. -/
theorem length_le (h : Divides m c lines cs) : cs.length ≤ lines.length + 1 := by
  induction h with
  | nil => simp
  | last => simp
  | @record call rest cs _ hends _ _ ih =>
    -- A call that is not the last one has fed the line that ends its record.
    have hne : call.block ≠ [] := by
      rintro hnil
      obtain ⟨before, hbefore, -⟩ := hends
      rw [hnil] at hbefore
      simp [Session.outcomes] at hbefore
    have hpos := List.length_pos_of_ne_nil hne
    rw [List.length_cons, List.length_append]
    omega

end Divides

/-- The verdict on a run that has not failed. -/
theorem Run.verdict_of_feedAll {r : Run} {block : List Text}
    (hfed : (Session.start {} m c).feedAll block = .ok r.session) (hfailure : r.failure = none) :
    r.verdict.1 =
      if (decide (.package ∈ FieldSet.effective m c.forced) && block.any Text.namesPackage) then .record
      else .empty := by
  -- A new record has an epoch of zero, and no line makes it too long.
  have hfits : Numeral.fits r.session.finish.package.epoch = true := by
    rw [Session.finish_package, Session.epoch_close]
    exact Session.fits_feedAll hfed Numeral.fits_zero
  rw [Run.verdict, hfailure]
  show r.session.finish.package.verdict.1 = _
  rw [Package.verdict_of_fits hfits, isSome_name_of_feedAll hfed]

namespace Source

variable {lines : List Text} {stop : Pull} {after : Source}

/-- What ends the delivery is no line, and a source that is done is exhausted. -/
theorem Delivers.done_or_fault (h : source.Delivers lines stop after) :
    stop = .done ∧ after.exhausted = true ∨ ∃ cause, stop = .fault cause := by
  induction h with
  | @stop source after stop h hl ha =>
    cases stop with
    | line line => exact absurd rfl (hl line)
    | done => exact .inl ⟨rfl, ha ▸ exhausted_of_next_done h⟩
    | fault cause => exact .inr ⟨cause, rfl⟩
  | line _ _ ih => exact ih

end Source

variable {lines : List Text} {stop : Pull} {after : Source}

/-- A call whose block was read is a sound one if its source has not failed, or if the verdict says that
it has. -/
theorem Call.sound_ofSource_of_failure
    (hfed : (Session.start {} m c).feedAll (Call.ofSource m c source).block =
      .ok ((Session.start {} m c).run source).session)
    (hverdict : (Call.ofSource m c source).reading.verdict = .failed ∨
      ((Session.start {} m c).run source).failure = none) :
    (Call.ofSource m c source).Sound m c where
  reading_eq := rfl
  fed := ⟨_, hfed, rfl⟩
  verdict := hverdict.imp_right fun hfailure => by
    refine (Run.verdict_of_feedAll hfed hfailure).trans ?_
    simp [Call.hasName]

/-- **One call.** It takes the lines of a record and leaves the rest to its source, or it takes all lines and
nothing is left. -/
theorem Call.ofSource_cases (hd : source.Delivers lines stop after)
    (hread : ∀ line ∈ lines, line.refusal? (.effective m c.forced) = none)
    (hstop : ∀ cause, stop = .fault cause → cause.isReadFailure = true) :
    let call := Call.ofSource m c source
    call.Sound m c ∧
      ((∃ rest, lines = call.block ++ rest ∧ call.reading.source.Delivers rest stop after ∧
          call.EndsRecord m c ∧ call.reading.verdict ≠ .failed) ∨
        lines = call.block ∧
          (call.reading.verdict = .failed ∨ call.reading.source.exhausted = true)) := by
  intro call
  -- Both kinds of block that end without a failure get a verdict on their record.
  have hverdict_of_none (hfailure : ((Session.start {} m c).run source).failure = none)
      (hfed : (Session.start {} m c).feedAll call.block =
        .ok ((Session.start {} m c).run source).session) : call.reading.verdict ≠ .failed := by
    rw [show call.reading.verdict = _ from Run.verdict_of_feedAll hfed hfailure]
    split <;> simp
  cases Session.takes_taken (s := Session.start {} m c) hd rfl hread [] with
  | @record block rest hlines hfed hended hfailure hrest =>
    refine ⟨sound_ofSource_of_failure hfed (.inr hfailure), .inl ⟨rest, hlines, hrest, ?_, ?_⟩⟩
    · exact Session.outcomes_of_feedAll hfed rfl hended
    · exact hverdict_of_none hfailure hfed
  | all hfed hopen hfailure hafter =>
    -- no line ended the record: the source is done, or it failed, which is the verdict on the call then
    obtain ⟨rfl, hx⟩ | ⟨cause, rfl⟩ := hd.done_or_fault
    · have hx' : call.reading.source.exhausted = true := (congrArg Source.exhausted hafter).trans hx
      exact ⟨sound_ofSource_of_failure hfed (.inr hfailure), .inr ⟨rfl, .inr hx'⟩⟩
    · have hverdict : call.reading.verdict = .failed := by
        show ((Session.start {} m c).run source).verdict.1 = _
        rw [Run.verdict, show ((Session.start {} m c).run source).failure = some cause from hfailure]
        simp [hstop cause rfl]
      exact ⟨sound_ofSource_of_failure hfed (.inl hverdict), .inr ⟨rfl, .inl hverdict⟩⟩

theorem calls_of_exhausted (hx : source.exhausted = true) : calls m c source = [] := by
  rw [calls, dif_pos hx]

/-- The first call is for the source as it is. Whether there are others depends on its verdict. -/
theorem calls_of_not_exhausted (hx : source.exhausted = false) :
    calls m c source = Call.ofSource m c source ::
      match (Call.ofSource m c source).reading.verdict with
      | .record | .empty => calls m c (Call.ofSource m c source).reading.source
      | .failed | .stopped _ => [] := by
  rw [calls, dif_neg (Bool.eq_false_iff.1 hx)]
  simp only
  split <;> rename_i hv <;> rw [hv]

/-- A call that has not failed is followed by those for the source that it leaves. -/
theorem calls_of_not_failed (hx : source.exhausted = false)
    (hv : (Call.ofSource m c source).reading.verdict = .record ∨
      (Call.ofSource m c source).reading.verdict = .empty) :
    calls m c source =
      Call.ofSource m c source :: calls m c (Call.ofSource m c source).reading.source := by
  rw [calls_of_not_exhausted hx]
  obtain hv | hv := hv
  · rw [hv]
  · rw [hv]

theorem calls_of_failed (hx : source.exhausted = false)
    (hv : (Call.ofSource m c source).reading.verdict = .failed) :
    calls m c source = [Call.ofSource m c source] := by
  rw [calls_of_not_exhausted hx, hv]

theorem source_of_mem_head?_calls {call : Call} (h : call ∈ (calls m c source).head?) :
    call.source = source := by
  cases hx : source.exhausted with
  | true =>
    rw [calls_of_exhausted hx] at h
    cases h
  | false =>
    rw [calls_of_not_exhausted hx] at h
    obtain rfl := Option.some.inj h
    rfl

/-- Each call is given the source as the one before has left it. -/
theorem isChain_calls :
    (calls m c source).IsChain fun call next => next.source = call.reading.source := by
  fun_induction calls m c source with
  | case1 => exact .nil
  | case2 source hx call hv ih | case3 source hx call hv ih =>
    exact ih.cons fun _ hnext => source_of_mem_head?_calls hnext
  | case4 | case5 => exact .singleton _

/-- A sound call that has not failed gives a package or an empty record. -/
theorem Call.Sound.verdict_of_not_failed {call : Call} (h : call.Sound m c)
    (hv : call.reading.verdict ≠ .failed) :
    call.reading.verdict = .record ∨ call.reading.verdict = .empty := by
  rw [h.verdict.resolve_left hv]
  split <;> simp

/-- **The calls of a reader divide the lines that its source delivers.** None of the lines is refused, and
the source either is done or fails to be read. -/
theorem divides_calls (hd : source.Delivers lines stop after)
    (hread : ∀ line ∈ lines, line.refusal? (.effective m c.forced) = none)
    (hstop : ∀ cause, stop = .fault cause → cause.isReadFailure = true) :
    Divides m c lines (calls m c source) := by
  -- the induction is on what is left of the source, which each record makes less
  induction hn : source.remaining using Nat.strongRecOn generalizing source lines with
  | ind n ih =>
    subst hn
    cases hx : source.exhausted with
    | true =>
      obtain ⟨rfl, -⟩ := hd.eq_nil_of_exhausted hx
      rw [calls_of_exhausted hx]
      exact .nil
    | false =>
      obtain ⟨hsound, ⟨rest, rfl, hrest, hends, hverdict⟩ | ⟨rfl, hend⟩⟩ :=
        Call.ofSource_cases hd hread hstop
      · -- The call takes a record, and the calls after it divide the rest of the lines.
        have hverdict' := hsound.verdict_of_not_failed hverdict
        rw [calls_of_not_failed hx hverdict']
        refine .record hsound hends hverdict ?_
        exact ih _ (remaining_readRecord_lt hx hverdict') hrest
          (fun line hl => hread line (List.mem_append_right _ hl)) rfl
      · -- The call takes all lines. It fails, or nothing is left after it, and both end the loop.
        have hlast : calls m c source = [Call.ofSource m c source] := by
          by_cases hv : (Call.ofSource m c source).reading.verdict = .failed
          · exact calls_of_failed hx hv
          · rw [calls_of_not_failed hx (hsound.verdict_of_not_failed hv),
              calls_of_exhausted (hend.resolve_left hv)]
        rw [hlast]
        exact .last hsound

/-- Behind a sound call the reading goes on, or it ends with the loss of the records that follow. -/
theorem Call.Sound.failure?_cases {call : Call} (h : call.Sound m c) :
    call.reading.failure? = none ∨
      ∃ name line, call.reading.failure? = some (.recordsLost name line) := by
  unfold Reading.failure?
  by_cases hv : call.reading.verdict = .failed
  · rw [hv]
    exact .inr ⟨_, _, rfl⟩
  · obtain hv' | hv' := h.verdict_of_not_failed hv
    · rw [hv']
      exact .inl rfl
    · rw [hv']
      exact .inl rfl

/-- Calls that are all sound end with no failure, or with the loss of the records that follow. -/
theorem Trace.failure_ofCalls {cs : List Call} (h : ∀ call ∈ cs, call.Sound m c) :
    (ofCalls cs).failure = none ∨
      ∃ name line, (ofCalls cs).failure = some (.recordsLost name line) := by
  cases hfailure : (ofCalls cs).failure with
  | none => exact .inl rfl
  | some e =>
    obtain ⟨call, hcall, he⟩ := List.exists_of_findSome?_eq_some hfailure
    rw [← he]
    exact (h call hcall).failure?_cases

/-- The one error of a text is a line over its limit, which counts as a failure of the source. -/
theorem Source.isReadFailure_of_lastAnswer {limit : Nat} {t : Text} {cause : Error}
    (h : source.lastAnswer limit t = .fault cause) : cause.isReadFailure = true := by
  unfold lastAnswer at h
  split at h
  · cases h
  · obtain rfl := Pull.fault.inj h
    rfl

/-- **The loop over records ends, and divides the lines.** Under a line limit that can be counted, and where
no line of a text up to the first one over the limit is refused:

* the trace of the reader is that of a row of calls, each with a fresh record and with the source as the one
  before has left it, and there is at most one call more than the text has lines;
* the reading ends normally, or with the loss of the records behind a line over the limit;
* the blocks are, one after the other, the lines that the source delivers;
* every block but the last ends with its only line that ends a record, and only the last call can fail;
* each call feeds its block to a fresh session. Unless it fails, it gives a package if the block names one
  and that field is read, and nothing otherwise;
* the packages are those of the calls that gave one, in order. -/
theorem readAll_calls {limit : Nat} {t name : Text} {medium : Medium}
    (hc : Source.isCountable limit = true)
    (hread : ∀ line ∈ t.within limit, line.refusal? (.effective m c.forced) = none) :
    let source := Source.ofStream { text := t, medium } limit name
    let cs := calls m c source
    (readAll m c source = Trace.ofCalls cs ∧ (∀ call ∈ cs.head?, call.source = source) ∧
        cs.IsChain fun call next => next.source = call.reading.source) ∧
      cs.length ≤ t.rows.length + 1 ∧
      ((readAll m c source).failure = none ∨
        ∃ name line, (readAll m c source).failure = some (.recordsLost name line)) ∧
      (cs.flatMap (·.block) = t.within limit ∧
        ∃ stop after, source.Delivers (t.within limit) stop after) ∧
      (∀ call ∈ cs.dropLast, call.EndsRecord m c ∧ call.reading.verdict ≠ .failed) ∧
      (∀ call ∈ cs, call.Sound m c) ∧
      (readAll m c source).packages =
        (cs.filter (·.reading.verdict = .record)).map (·.reading.package) := by
  intro source cs
  obtain ⟨after, hd, -, -⟩ := Source.delivers_text (s := source) Source.exhausted_ofStream
    Source.supply_ofStream hc
  have hdivides : Divides m c (t.within limit) cs :=
    divides_calls hd hread fun cause hcause => Source.isReadFailure_of_lastAnswer hcause
  have htrace : readAll m c source = Trace.ofCalls cs := readAll_eq_ofCalls
  -- The lines are counted against the rows of the text, some of which may be behind the limit.
  have hwithin : (t.within limit).length ≤ t.rows.length :=
    (List.takeWhile_prefix _).length_le
  rw [htrace]
  refine ⟨⟨rfl, fun call => source_of_mem_head?_calls, isChain_calls⟩, ?_,
    Trace.failure_ofCalls hdivides.sound, ⟨hdivides.flatMap_block, _, after, hd⟩,
    hdivides.endsRecord, hdivides.sound, Trace.packages_ofCalls cs⟩
  exact hdivides.length_le.trans (by omega)

/-- Two records with blank lines around them, and a line over the limit behind them. -/
theorem readAll_calls_two_records :
    let t : Text := "\nPackage: a\n\n\nPackage: b\n123456789 12".toList
    let source := Source.ofStream { text := t } 10
    let cs := calls .full {} source
    cs.flatMap (·.block) = ["", "Package: a", "", "", "Package: b"].map String.toList ∧
      cs.length ≤ 7 := by
  intro t source cs
  have hread : ∀ line ∈ t.within 10, line.refusal? (.effective .full .empty) = none := by
    decide +kernel
  obtain ⟨-, hlength, -, ⟨hblocks, -⟩, -⟩ :=
    @readAll_calls .full {} 10 t [] .memory (by decide) hread
  exact ⟨hblocks.trans (by decide +kernel), hlength.trans (by decide +kernel)⟩

/-- A line limit that cannot be counted ends the reading with another error, also of a text without
lines. -/
theorem not_readText_ends :
    ¬∀ (m : FieldSet) (c : Config) (t : Text),
      (∀ line ∈ t.rows, line.refusal? (.effective m c.forced) = none) →
      (readText m c t).failure = none ∨
        ∃ name line, (readText m c t).failure = some (.recordsLost name line) := by
  intro h
  let c : Config := { lineLimit := 9223372036854775807 }
  have hfailure : (readText .full c []).failure = some (.lookaheadOutOfRange .memory) :=
    failure_readText_of_not_countable (by decide)
  obtain hnone | ⟨name, line, hlost⟩ := h .full c [] (by simp)
  · rw [hfailure] at hnone
    cases hnone
  · rw [hfailure] at hlost
    cases hlost

end ControlFile

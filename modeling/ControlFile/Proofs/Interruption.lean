import ControlFile.Proofs.Cuts
import ControlFile.Proofs.Refusal
import Mathlib.Data.List.DropRight

/-!
# What an interrupted source gives

A source may fail where a line should come: its data is damaged, it cannot be read on, or a line is over
the limit. What was read of the open record is dropped then, and nothing else is lost
(`readAll_of_fault`): the packages are those of the lines up to the last one that ended a record,
`Session.completed`, and the failure that is told is that the records after some line are lost.

The two halves of this are facts about the harvest of the lines before the failure. Lines after the last
end of a record add nothing to it (`Session.packages_completed`), and lines in place of the failure take
nothing away from it (`Session.packages_isPrefix`). `Source.Delivers.text_eq` leads from a source that
fails back to its text.
-/

namespace ControlFile

/-- The lines up to the last one with which the session, or a fresh one after it, ends a record. -/
def Session.completed (s fresh : Session) (lines : List Text) : List Text :=
  lines.take ((s.cuts fresh lines).rdropWhile (!·)).length

/-! ### The harvest before a failure -/

/-- Dropping from the end stops at the first element that is kept. -/
theorem rdropWhile_cons {α : Type} (p : α → Bool) (a : α) (as : List α) :
    (a :: as).rdropWhile p =
      if as.rdropWhile p = [] then [a].rdropWhile p else a :: as.rdropWhile p := by
  simp only [List.rdropWhile, List.reverse_cons, List.dropWhile_append, List.isEmpty_iff,
    List.reverse_eq_nil_iff]
  split <;> simp

namespace Session

variable {s s' fresh : Session} {line : Text} {lines more : List Text} {o : Outcome}
  {last : Option Error} {cause : Error}

theorem completed_eq_nil_iff :
    s.completed fresh lines = [] ↔ (s.cuts fresh lines).rdropWhile (!·) = [] := by
  rw [completed, List.take_eq_nil_iff, List.length_eq_zero_iff]
  refine ⟨fun h => ?_, .inl⟩
  rcases h with h | rfl
  · exact h
  · rfl

/-- The line that ends a record is completed, and the rest is a matter of fresh sessions. -/
theorem completed_of_ended (h : s.Step line s' .ended) :
    s.completed fresh (line :: lines) = line :: fresh.completed fresh lines := by
  rw [completed, cuts_of_ended h, rdropWhile_cons]
  split
  · rename_i hnil
    simp [completed, hnil, List.rdropWhile_singleton]
  · simp [completed]

/-- A line with which the record goes on is completed if a later line ends it. -/
theorem completed_of_goesOn (h : s.Step line s' o) (ho : o = .goesOn ∨ o = .malformed) :
    s.completed fresh (line :: lines) =
      if s'.completed fresh lines = [] then [] else line :: s'.completed fresh lines := by
  rw [completed, cuts_of_goesOn h ho, rdropWhile_cons]
  simp only [completed_eq_nil_iff]
  split
  · simp
  · simp [completed]

theorem completed_of_refused (h : s.Step line s' (.refused cause)) :
    s.completed fresh (line :: lines) = [] := by
  rw [completed, cuts, h.feed_eq.2]
  simp

end Session

theorem Package.packages_harvest_congr (p : Package) {rest rest' : Harvest}
    (h : rest.packages = rest'.packages) :
    (p.harvest rest).packages = (p.harvest rest').packages := by
  unfold Package.harvest
  split
  · rw [Harvest.after_packages, Harvest.after_packages, h]
  · rfl
  · exact h
  · exact h

/-- Behind a record, more packages in the rest are more packages in all. -/
theorem Package.packages_harvest_isPrefix (p : Package) {rest rest' : Harvest}
    (h : rest.packages <+: rest'.packages) :
    (p.harvest rest).packages <+: (p.harvest rest').packages := by
  unfold Package.harvest
  split
  · exact (List.prefix_append_right_inj [p]).2 h
  · exact List.prefix_refl []
  · exact h
  · exact h

namespace Session

variable {s s' fresh : Session} {line : Text} {lines more : List Text} {o : Outcome}
  {last : Option Error} {cause : Error}

/-- **Only the open record is dropped.** Where a failure follows the lines, they give what the lines up to
the last end of a record give, which is nothing if no record has ended. -/
theorem packages_completed (hname : fresh.finish.package.name = none) :
    (s.completed fresh lines = [] → (s.harvest fresh lines (some cause)).packages = []) ∧
      (s.completed fresh lines ≠ [] →
        (s.harvest fresh (s.completed fresh lines) none).packages =
          (s.harvest fresh lines (some cause)).packages) := by
  induction lines generalizing s with
  | nil => simp [completed, cuts, harvest]
  | cons line lines ih =>
    obtain ⟨s', o, hstep⟩ := exists_step s line
    cases o with
    | ended =>
      rw [completed_of_ended hstep, harvest_of_ended hstep, harvest_of_ended hstep]
      refine ⟨by simp, fun _ => Package.packages_harvest_congr _ ?_⟩
      -- A fresh session that ends no record more gives nothing, with a failure or without.
      obtain ⟨hnil, hcons⟩ := ih (s := fresh)
      by_cases hdone : fresh.completed fresh lines = []
      · rw [hdone, hnil hdone, harvest, Package.harvest_of_name_eq_none hname]
      · exact hcons hdone
    | refused e =>
      rw [completed_of_refused hstep, harvest_of_refused hstep]
      simp
    | goesOn | malformed =>
      rw [completed_of_goesOn hstep (by simp), harvest_of_goesOn hstep (by simp)]
      -- If no record ends later, none of these lines is completed and none gives a package.
      obtain ⟨hnil, hcons⟩ := ih (s := s')
      split
      · exact ⟨fun _ => hnil ‹_›, by simp⟩
      · rw [harvest_of_goesOn hstep (by simp)]
        exact ⟨by simp, fun _ => hcons ‹_›⟩

/-- Where no line is refused, the lines up to the last end of a record are read to their end, and give the
packages that come before the failure. -/
theorem harvest_completed (hfresh : fresh.phase = .idle) (hname : fresh.package.name = none)
    (hfits : Numeral.fits fresh.package.epoch = true)
    (hread : ∀ line ∈ lines, line.refusal? fresh.mask = none) :
    fresh.harvest fresh (fresh.completed fresh lines) none =
      { packages := (fresh.harvest fresh lines (some cause)).packages } := by
  have hf : fresh.finished = false := by simp [finished, hfresh]
  have hname' : fresh.finish.package.name = none := by
    rw [finish_package, close_of_idle hfresh]
    exact hname
  apply Harvest.ext
  · by_cases hdone : fresh.completed fresh lines = []
    · -- With no end of a record there is nothing to be read, and nothing was given.
      rw [(packages_completed hname').1 hdone, hdone, harvest,
        Package.harvest_of_name_eq_none hname']
    · exact (packages_completed hname').2 hdone
  · rw [failure_harvest hf hf rfl hfits hfits, Option.or_none, List.findSome?_eq_none_iff]
    exact fun line hl => hread line (List.mem_of_mem_take hl)

/-- **A failure takes no package away** that the lines before it give, whatever would stand in its
place. -/
theorem packages_isPrefix :
    (s.harvest fresh lines (some cause)).packages <+:
      (s.harvest fresh (lines ++ more) last).packages := by
  induction lines generalizing s with
  | nil => simp [harvest]
  | cons line lines ih =>
    obtain ⟨s', o, hstep⟩ := exists_step s line
    rw [List.cons_append]
    cases o with
    | ended =>
      rw [harvest_of_ended hstep, harvest_of_ended hstep]
      -- The record that ends here is the same in both, and the rest is compared by the induction.
      exact Package.packages_harvest_isPrefix _ ih
    | refused e =>
      rw [harvest_of_refused hstep]
      exact List.nil_prefix
    | goesOn | malformed =>
      rw [harvest_of_goesOn hstep (by simp), harvest_of_goesOn hstep (by simp)]
      exact ih

end Session

/-! ### The lines before a failure -/

namespace Source

variable {s after : Source} {stream : Stream} {limit : Nat} {line : Text} {lines : List Text}
  {stop : Pull} {cause : Error}

/-- A stream that does not refuse its limit can count to it. -/
theorem isCountable_of_next (hx : s.exhausted = false) (hs : s.supply = .stream stream limit)
    (h : s.next.pull ≠ .fault (.lookaheadOutOfRange stream.medium)) :
    isCountable limit = true := by
  by_contra hc
  rw [Bool.not_eq_true] at hc
  exact h (by simp [next, hx, hs, nextOfStream, hc])

/-- A line that a stream gives before it is exhausted stands in front of a newline, within the limit. -/
theorem text_eq_of_next (hx : s.exhausted = false) (hs : s.supply = .stream stream limit)
    (h : s.next.pull = .line line) (hx' : s.next.source.exhausted = false) :
    ∃ rest, stream.text = line ++ '\n' :: rest ∧ '\n' ∉ line ∧ line.length ≤ limit ∧
      s.next.source.supply = .stream { stream with text := rest } limit := by
  have hc : isCountable limit = true := isCountable_of_next hx hs (by simp [h])
  have hneg : (limit : Int) ≠ -1 := by omega
  rw [next_stream hx hs hc] at h hx' ⊢
  unfold lineOfStream at h hx' ⊢
  rcases hsplit : splitLine stream.text with ⟨first, _ | rest⟩
  · -- Without a newline a line can only be the last one, after which the source is exhausted.
    exfalso
    simp only [hsplit, if_neg hneg] at h hx'
    split_ifs at h hx' with hlong
    · cases h
    · cases hend : stream.ending with
      | clean =>
        rw [hend, atTextEnd, atLastLine] at h hx'
        split_ifs at h hx' <;> cases hx'
      | corrupt damage => simp [hend, atTextEnd] at h
      | failed cause => simp [hend, atTextEnd] at h
  · simp only [hsplit, if_neg hneg] at h hx' ⊢
    split_ifs at h hx' ⊢ with hlong
    · cases h
    · obtain rfl := Pull.line.inj h
      -- There is a newline, and the text is cut at the first one.
      have hcut : Text.cut? '\n' stream.text = some (first, rest) := by
        unfold splitLine at hsplit
        split at hsplit <;> simp_all
      exact ⟨rest, Text.eq_append_of_cut? hcut, Text.not_mem_of_cut? hcut, by omega, rfl⟩

/-- **The lines before a failure** are the front of the text, a newline after each, and none of them is
over the limit. -/
theorem Delivers.text_eq (h : s.Delivers lines (.fault cause) after) (hx : s.exhausted = false)
    (hs : s.supply = .stream stream limit) :
    (∃ rest, stream.text = Text.ofRows lines ++ rest) ∧
      ∀ line ∈ lines, '\n' ∉ line ∧ line.length ≤ limit := by
  generalize hstop : Pull.fault cause = stop at h
  induction h generalizing stream with
  | stop => exact ⟨⟨stream.text, rfl⟩, by simp⟩
  | @line s after stop line lines h hd ih =>
    -- An exhausted source would have answered that it is done.
    have hx' : s.next.source.exhausted = false := by
      cases hx' : s.next.source.exhausted with
      | false => rfl
      | true =>
        obtain ⟨-, rfl⟩ := hd.eq_nil_of_exhausted hx'
        cases hstop
    obtain ⟨rest, htext, hn, hl, hsupply⟩ := text_eq_of_next hx hs h hx'
    obtain ⟨⟨rest', hrest⟩, hlines⟩ := ih hx' hsupply hstop
    refine ⟨⟨rest', ?_⟩, ?_⟩
    · rw [htext, show rest = Text.ofRows lines ++ rest' from hrest]
      simp [Text.ofRows]
    · intro l hmem
      rcases List.mem_cons.1 hmem with rfl | hmem
      · exact ⟨hn, hl⟩
      · exact hlines l hmem

/-- Lines that have newlines and are within the limit are delivered, and then what the source answers to
the rest of the text. -/
theorem delivers_ofRows {rest : Text} {ending : Ending} {medium : Medium} (hx : s.exhausted = false)
    (hs : s.supply = .stream ⟨Text.ofRows lines ++ rest, ending, medium⟩ limit)
    (hc : Source.isCountable limit = true)
    (hlines : ∀ line ∈ lines, '\n' ∉ line ∧ line.length ≤ limit)
    (hstop : ∀ s' : Source, s'.exhausted = false → s'.supply = .stream ⟨rest, ending, medium⟩ limit →
      ∃ cause, s'.next.pull = .fault cause ∧ cause.isReadFailure = true) :
    ∃ cause after, s.Delivers lines (.fault cause) after ∧ cause.isReadFailure = true := by
  induction lines generalizing s with
  | nil =>
    -- No line is left, so the next answer is the failure.
    obtain ⟨cause, hpull, hcause⟩ := hstop s hx hs
    exact ⟨cause, _, .stop hpull (by simp) rfl, hcause⟩
  | cons line lines ih =>
    obtain ⟨hn, hl⟩ := hlines line List.mem_cons_self
    have htext : Text.ofRows (line :: lines) ++ rest = line ++ '\n' :: (Text.ofRows lines ++ rest) := by
      simp [Text.ofRows]
    rw [htext] at hs
    have hnext := next_line hx hs hc hn hl
    obtain ⟨cause, after, hd, hcause⟩ := ih (s := s.next.source) (by rw [hnext]; exact hx)
      (by rw [hnext]) fun l hmem => hlines l (List.mem_cons_of_mem line hmem)
    exact ⟨cause, after, .line (by rw [hnext]) hd, hcause⟩

/-- **How a stream fails after some lines.** The next line is over the limit, or the text is used up and
the data behind it is damaged or cannot be read. -/
theorem delivers_of_failing {rest : Text} (hx : s.exhausted = false)
    (hs : s.supply = .stream stream limit) (hc : Source.isCountable limit = true)
    (htext : stream.text = Text.ofRows lines ++ rest)
    (hlines : ∀ line ∈ lines, '\n' ∉ line ∧ line.length ≤ limit)
    (hfail : limit < (splitLine rest).1.length ∨ '\n' ∉ rest ∧
      ((∃ damage, stream.ending = .corrupt damage) ∨
        ∃ cause, stream.ending = .failed cause ∧ cause.isReadFailure = true)) :
    ∃ cause after, s.Delivers lines (.fault cause) after ∧ cause.isReadFailure = true := by
  obtain ⟨text, ending, medium⟩ := stream
  obtain rfl : text = Text.ofRows lines ++ rest := htext
  refine delivers_ofRows hx hs hc hlines fun s' hx' hs' => ?_
  rw [next_stream hx' hs' hc]
  by_cases hlong : limit < (splitLine rest).1.length
  · exact ⟨_, by rw [lineOfStream_long rfl hlong]; rfl, rfl⟩
  · obtain ⟨hn, hending⟩ := hfail.resolve_left hlong
    simp only [splitLine_of_not_mem hn] at hlong
    rw [lineOfStream_last hn (by omega)]
    rcases hending with ⟨damage, rfl⟩ | ⟨cause, rfl, hcause⟩
    · exact ⟨_, rfl, rfl⟩
    · exact ⟨cause, rfl, hcause⟩

/-- A source that fails to be read has a limit that can be counted. -/
theorem Delivers.isCountable (h : s.Delivers lines (.fault cause) after)
    (hcause : cause.isReadFailure = true) (hx : s.exhausted = false)
    (hs : s.supply = .stream stream limit) : Source.isCountable limit = true := by
  -- A limit that is refused would be the first answer, and is no failure of reading.
  refine isCountable_of_next hx hs fun hnext => ?_
  cases h with
  | stop h hl ha =>
    rw [h, Pull.fault.injEq] at hnext
    rw [hnext] at hcause
    cases hcause
  | line h hd =>
    rw [h] at hnext
    cases hnext

end Source

section Stream

variable {m : FieldSet} {c : Config} {stream : Stream} {limit : Nat} {name : Text}

/-- The harvest of a text under any limit is that of its rows within the limit, and no failure follows
them if they are all of its rows. -/
theorem harvest_readAll_text (hc : Source.isCountable limit = true) (t : Text) :
    ∃ last, (readAll m c (.ofStream { text := t } limit)).harvest =
        (Session.start {} m c).harvest (.start {} m c) (t.within limit) last ∧
      ((∀ line ∈ t.rows, line.length ≤ limit) → last = none) := by
  obtain ⟨after, hd, -, -⟩ := Source.delivers_text (s := .ofStream { text := t } limit)
    Source.exhausted_ofStream Source.supply_ofStream hc
  refine ⟨_, harvest_readAll hd, fun hall => ?_⟩
  have hall : t.rows.all (·.length ≤ limit) = true := by simpa using hall
  rw [Source.lastAnswer, if_pos hall]
  rfl

/-- The harvest of these lines with newlines after them, and of more text. -/
theorem harvest_readAll_ofRows {lines : List Text} (hc : Source.isCountable limit = true)
    (hlines : ∀ line ∈ lines, '\n' ∉ line ∧ line.length ≤ limit) (t : Text) :
    ∃ last, (readAll m c (.ofStream { text := Text.ofRows lines ++ t } limit)).harvest =
        (Session.start {} m c).harvest (.start {} m c) (lines ++ t.within limit) last ∧
      (t = [] → last = none) := by
  obtain ⟨last, hharvest, hlast⟩ := harvest_readAll_text hc (Text.ofRows lines ++ t)
  have hrows := Text.rows_ofRows_append (fun l hl => (hlines l hl).1) t
  have hwithin : Text.within limit (Text.ofRows lines ++ t) = lines ++ t.within limit := by
    rw [Text.within, hrows, List.takeWhile_append_of_pos fun l hl => decide_eq_true (hlines l hl).2]
    rfl
  rw [hwithin] at hharvest
  refine ⟨last, hharvest, fun ht => hlast fun line hl => ?_⟩
  rw [hrows, ht, Text.rows_nil, List.append_nil] at hl
  exact (hlines line hl).2

/-- **A failed read loses the record that it interrupts, and no other.** A stream gives these lines, none
of which is refused, and then it cannot be read, or the next line is over the limit. The packages are
those of the text of the lines up to the last one that ended a record, which is read to its end; the
failure is that the records after some line are lost; and with any text in place of the failure, the same
packages come first. -/
theorem readAll_of_fault {lines : List Text} {cause : Error} {after : Source}
    (hd : (Source.ofStream stream limit name).Delivers lines (.fault cause) after)
    (hcause : cause.isReadFailure = true)
    (hread : ∀ line ∈ lines, line.refusal? (.effective m c.forced) = none) :
    let fresh := Session.start {} m c
    let trace := readAll m c (.ofStream stream limit name)
    let done := Text.ofRows (fresh.completed fresh lines)
    (readAll m c (.ofStream { text := done } limit)).packages? = .ok trace.packages ∧
      trace.failure = some (.recordsLost after.name after.line) ∧
      ∀ (t : Text) (limit' : Nat), limit ≤ limit' → Source.isCountable limit' = true →
        trace.packages <+:
          (readAll m c (.ofStream { text := Text.ofRows lines ++ t } limit')).packages := by
  intro fresh trace done
  have hx : (Source.ofStream stream limit name).exhausted = false := Source.exhausted_ofStream
  have hs : (Source.ofStream stream limit name).supply = .stream stream limit :=
    Source.supply_ofStream
  obtain ⟨-, hlines⟩ := hd.text_eq hx hs
  have hc : Source.isCountable limit = true := hd.isCountable hcause hx hs
  have hfits : Numeral.fits fresh.package.epoch = true := Numeral.fits_zero
  have htrace : trace.harvest =
      fresh.harvest fresh lines (some (.recordsLost after.name after.line)) := by
    rw [show trace.harvest = _ from harvest_readAll hd, Pull.failure?, if_pos hcause]
  have hpackages : trace.packages =
      (fresh.harvest fresh lines (some (.recordsLost after.name after.line))).packages :=
    congrArg Harvest.packages htrace
  refine ⟨?_, ?_, fun t limit' hle hc' => ?_⟩
  · -- The lines up to the last end of a record are some of the lines, and end with their own text.
    have hcompleted : ∀ line ∈ fresh.completed fresh lines, '\n' ∉ line ∧ line.length ≤ limit :=
      fun line hl => hlines line (List.mem_of_mem_take hl)
    obtain ⟨last, hharvest, hlast⟩ := harvest_readAll_ofRows (m := m) (c := c) hc hcompleted []
    rw [hlast rfl, List.append_nil, Text.within, Text.rows_nil, List.takeWhile_nil, List.append_nil]
      at hharvest
    rw [Trace.packages?_eq_ok, hharvest, hpackages]
    exact Session.harvest_completed rfl rfl hfits hread
  · have hnone : lines.findSome? (Text.refusal? fresh.mask) = none :=
      List.findSome?_eq_none_iff.2 hread
    rw [show trace.failure = _ from congrArg Harvest.failure htrace,
      Session.failure_harvest rfl rfl rfl hfits hfits, hnone]
    rfl
  · -- Under a larger limit the lines are delivered all the same, and more text may follow them.
    have hlines' : ∀ line ∈ lines, '\n' ∉ line ∧ line.length ≤ limit' :=
      fun line hl => ⟨(hlines line hl).1, (hlines line hl).2.trans hle⟩
    obtain ⟨last, hharvest, -⟩ := harvest_readAll_ofRows (m := m) (c := c) hc' hlines' t
    have hmore := congrArg Harvest.packages hharvest
    rw [hpackages, show (readAll m c _).packages = _ from hmore]
    exact Session.packages_isPrefix

/-- A second record has a name and an open description when its data turns out to be damaged, in the
middle of a line that would have ended the description. -/
theorem readAll_of_fault_open_description :
    let lines : List Text :=
      ["Package: a", "", "Package: b", "Description: d", " body"].map String.toList
    let stream : Stream := ⟨Text.ofRows lines ++ "Size".toList, .corrupt .endsEarly, .file⟩
    let trace := readAll .full {} (.ofStream stream 16)
    let done : Text := "Package: a\n\n".toList
    ∃ cause after, (Source.ofStream stream 16).Delivers lines (.fault cause) after ∧
      cause.isReadFailure = true ∧
      (∀ line ∈ lines, line.refusal? (.effective .full .empty) = none) ∧
      (readAll .full {} (.ofStream { text := done } 16)).packages? = .ok trace.packages ∧
      trace.failure = some (.recordsLost after.name after.line) ∧
      ∀ (t : Text) (limit' : Nat), 16 ≤ limit' → Source.isCountable limit' = true →
        trace.packages <+:
          (readAll .full {} (.ofStream { text := Text.ofRows lines ++ t } limit')).packages := by
  intro lines stream trace done
  obtain ⟨cause, after, hd, hcause⟩ : ∃ cause after,
      (Source.ofStream stream 16).Delivers lines (.fault cause) after ∧
        cause.isReadFailure = true :=
    Source.delivers_of_failing Source.exhausted_ofStream Source.supply_ofStream (by decide) rfl
      (by decide) (.inr ⟨by decide, .inl ⟨.endsEarly, rfl⟩⟩)
  have hread : ∀ line ∈ lines, line.refusal? (.effective .full .empty) = none := by decide +kernel
  obtain ⟨hpackages, hfailure, hprefix⟩ := readAll_of_fault (m := .full) (c := {}) hd hcause hread
  have hdone : Text.ofRows ((Session.start {} .full {}).completed (.start {} .full {}) lines) = done := by
    decide +kernel
  rw [hdone] at hpackages
  exact ⟨cause, after, hd, hcause, hread, hpackages, hfailure, hprefix⟩

end Stream

end ControlFile

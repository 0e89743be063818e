import ControlFile.Proofs.Harvest

/-!
# Records do not share state

A text that is read to its end, an empty line, and any other text: reading the whole gives the packages
of the first text and then whatever the second gives (`readText_append_blank`).

Two things can differ between the whole and its parts. The first text may stop in the middle of a
record, a block or a line, which the end of the input closes in one case and the empty line in the
other: that both leave the same record is `Session.harvest_append_blank`, and that further empty lines
between records give nothing is `Session.harvest_replicate_blank`. And a failure in the second text is
reported with a line number, which in the whole counts the lines of the first text too: that nothing
else about a failure depends on where it stands is `Session.harvest_map_last`.
-/

namespace ControlFile

/-- The failure of a reading that had this many lines before it: the line after which records are lost
is counted from the first of them, and all else is as it was. -/
def Error.afterLines (count : Nat) : Error → Error
  | .recordsLost source line => .recordsLost source (count + line)
  | e => e

theorem Error.afterLines_of_not_isReadFailure {e : Error} (h : e.isReadFailure = false)
    (count : Nat) : e.afterLines count = e := by
  cases e with
  | recordsLost => cases h
  | _ => rfl

/-! ### One record before others -/

/-- What stands behind a record does not change what the record gives. -/
theorem Package.harvest_after {p : Package} {rest : Harvest} {ps : List Package}
    (h : p.harvest rest = { packages := ps }) :
    ∃ qs, rest = { packages := qs } ∧
      ∀ rest', p.harvest (Harvest.after qs rest') = Harvest.after ps rest' := by
  rcases Package.harvest_eq_iff.1 h with ⟨hname, rfl⟩ | ⟨name, version, qs, hname, hv, rfl, rfl⟩
  · exact ⟨ps, rfl, fun rest' => Package.harvest_of_name_eq_none hname _⟩
  · refine ⟨qs, rfl, fun rest' => ?_⟩
    rw [Package.harvest_of_name hname hv, Harvest.after_after]
    rfl

/-- The verdict on a record is no failure of reading. -/
theorem Package.not_isReadFailure_of_verdict {p : Package} {cause : Error}
    (h : p.verdict.1 = .stopped cause) : cause.isReadFailure = false := by
  unfold verdict at h
  cases hn : p.name with
  | none =>
    rw [hn] at h
    cases h
  | some name =>
    rw [hn] at h
    cases hv : p.fullVersionText? with
    | ok version =>
      rw [hv] at h
      cases h
    | error e =>
      rw [hv] at h
      cases h
      unfold fullVersionText? Version.text? Numeral.signed? at hv
      repeat' split at hv
      all_goals cases hv
      rfl

namespace Session

variable {s fresh : Session} {lines rest : List Text} {ps : List Package} {last : Option Error}

theorem harvest_replicate_blank (hs : fresh.finished = false)
    (hn : fresh.finish.package.name = none) (n : Nat) :
    fresh.harvest fresh (List.replicate n [] ++ lines) last = fresh.harvest fresh lines last := by
  induction n with
  | zero => rfl
  | succ n ih =>
    rw [List.replicate_succ, List.cons_append, harvest_blank hs,
      Package.harvest_of_name_eq_none hn, ih]

/-- **An empty line closes what is open.** If lines can be harvested to their end from here, then with
an empty line and more lines behind them they give the same packages, and a fresh session reads the
lines behind. -/
theorem harvest_append_blank (hfresh : fresh.finished = false) (hs : s.finished = false)
    (h : s.harvest fresh lines none = { packages := ps }) :
    s.harvest fresh (lines ++ [] :: rest) last = (fresh.harvest fresh rest last).after ps := by
  induction lines generalizing s ps with
  | nil =>
    -- The empty line finishes the record that the end of the lines would finish.
    rw [harvest] at h
    obtain ⟨qs, hqs, hrest⟩ := Package.harvest_after h
    cases hqs
    rw [List.nil_append, harvest_blank hs]
    exact hrest _
  | cons line lines ih =>
    have hstep := s.feed_step line
    rw [List.cons_append]
    cases ho : (s.feed line).outcome with
    | ended =>
      rw [ho] at hstep
      rw [harvest_of_ended hstep] at h ⊢
      -- The record is the same in both, and the fresh session has `qs` before the empty line.
      obtain ⟨qs, hqs, hrest⟩ := Package.harvest_after h
      rw [ih hfresh hqs]
      exact hrest _
    | refused cause =>
      rw [ho] at hstep
      rw [harvest_of_refused hstep] at h
      cases h
    | goesOn =>
      rw [harvest_of_goesOn hstep (.inl ho)] at h ⊢
      -- The line is the same in both, and the record goes on.
      exact ih (hstep.not_finished (.inl ho)) h
    | malformed =>
      rw [harvest_of_goesOn hstep (.inr ho)] at h ⊢
      exact ih (hstep.not_finished (.inr ho)) h

/-- **What a failure says of its place** is said by the failure behind the lines only. -/
theorem harvest_map_last {f : Error → Error} (hf : ∀ e, e.isReadFailure = false → f e = e) :
    s.harvest fresh lines (last.map f) =
      { packages := (s.harvest fresh lines last).packages
        failure := (s.harvest fresh lines last).failure.map f } := by
  -- A finished record passes the failure behind it on, or stops with one that `f` leaves alone.
  have hp : ∀ (p : Package) (r r' : Harvest),
      r' = { packages := r.packages, failure := r.failure.map f } →
      p.harvest r' =
        { packages := (p.harvest r).packages, failure := (p.harvest r).failure.map f } := by
    rintro p r _ rfl
    unfold Package.harvest
    cases hv : p.verdict.1 with
    | record => rfl
    | stopped cause =>
      simp [hf cause (Package.not_isReadFailure_of_verdict hv)]
    | empty | failed => rfl
  induction lines generalizing s with
  | nil =>
    cases last with
    | none => exact hp _ {} {} rfl
    | some e => rfl
  | cons line lines ih =>
    have hstep := s.feed_step line
    cases ho : (s.feed line).outcome with
    | ended =>
      rw [ho] at hstep
      rw [harvest_of_ended hstep, harvest_of_ended hstep]
      exact hp _ _ _ ih
    | refused cause =>
      rw [ho] at hstep
      rw [harvest_of_refused hstep, harvest_of_refused hstep]
      simp [hf cause hstep.not_isReadFailure]
    | goesOn => rw [harvest_of_goesOn hstep (.inl ho), harvest_of_goesOn hstep (.inl ho), ih]
    | malformed => rw [harvest_of_goesOn hstep (.inr ho), harvest_of_goesOn hstep (.inr ho), ih]

end Session

/-! ### Joined texts -/

namespace Text

variable {limit : Nat} {s t : Text}

/-- The lines within the limit are those of the first text and then those of the second, if the first
has no line over it. -/
theorem within_append (hs : ∀ line ∈ rows (s ++ ['\n']), line.length ≤ limit) :
    within limit (s ++ '\n' :: t) = rows (s ++ ['\n']) ++ t.within limit := by
  rw [within, rows_append, List.takeWhile_append_of_pos (by simpa using hs)]
  rfl

/-- What is lost of the second text is lost of the whole, under a number that counts the lines of the
first. -/
theorem lost?_append (hs : ∀ line ∈ rows (s ++ ['\n']), line.length ≤ limit) :
    lost? limit (s ++ '\n' :: t) =
      (t.lost? limit).map (Error.afterLines (rows (s ++ ['\n'])).length) := by
  have hall : (rows (s ++ ['\n'])).all (·.length ≤ limit) = true := by simpa using hs
  unfold lost?
  rw [rows_append, List.all_append, hall, Bool.true_and, within_append hs, List.length_append]
  split <;> rfl

end Text

/-- **Records do not share state.** A text that is read to its end, an empty line and any other text
give the packages of the first and then those of the second. A failure of the second is the failure of
the whole, where a line number in it counts the lines before it too. -/
theorem readText_append_blank {requested : FieldSet} {config : Config} {s t : Text}
    {ps : List Package} (h : (readText requested config s).packages? = .ok ps) :
    (readText requested config (s ++ '\n' :: '\n' :: t)).packages =
        ps ++ (readText requested config t).packages ∧
      (readText requested config (s ++ '\n' :: '\n' :: t)).failure =
        (readText requested config t).failure.map
          (Error.afterLines (Text.rows (s ++ ['\n', '\n'])).length) := by
  obtain ⟨hc, hshort, hs⟩ := readText_eq_ok_iff.1 h
  obtain ⟨n, hn⟩ := Text.rows_append_blank s
  let fresh := Session.start {} requested config
  -- Seen from the second text, the first one ends with the newline of an empty line.
  have hjoin : s ++ '\n' :: '\n' :: t = (s ++ ['\n']) ++ '\n' :: t := by simp
  have hfirst : Text.rows (s ++ ['\n'] ++ ['\n']) = Text.rows s ++ List.replicate (n + 1) [] := by
    rw [← hn]
    simp
  have hfirstShort : ∀ line ∈ Text.rows (s ++ ['\n'] ++ ['\n']),
      line.length ≤ config.lineLimit := by
    intro line hl
    rw [hfirst, List.mem_append] at hl
    rcases hl with hl | hl
    · exact hshort line hl
    · simp [List.eq_of_mem_replicate hl]
  -- The lines of the first text, the empty lines of the seam, and the lines of the second text.
  have hharvest : (readText requested config (s ++ '\n' :: '\n' :: t)).harvest =
      Harvest.after ps
        (fresh.harvest fresh (t.within config.lineLimit)
          ((t.lost? config.lineLimit).map
            (Error.afterLines (Text.rows (s ++ ['\n'] ++ ['\n'])).length))) := by
    rw [hjoin, harvest_readText hc, Text.within_append hfirstShort, Text.lost?_append hfirstShort,
      hfirst, List.replicate_succ, List.append_assoc, List.cons_append]
    refine (Session.harvest_append_blank rfl rfl hs).trans ?_
    rw [Session.harvest_replicate_blank rfl rfl]
  -- What is left is to count the lines before the second text in its failure.
  have hfix : ∀ e : Error, e.isReadFailure = false →
      e.afterLines (Text.rows (s ++ ['\n'] ++ ['\n'])).length = e :=
    fun e he => e.afterLines_of_not_isReadFailure he _
  rw [Session.harvest_map_last hfix, ← harvest_readText hc] at hharvest
  have hrows : Text.rows (s ++ ['\n', '\n']) = Text.rows (s ++ ['\n'] ++ ['\n']) := by simp
  rw [hrows]
  exact ⟨congrArg Harvest.packages hharvest, congrArg Harvest.failure hharvest⟩

/-- A first text that stops inside a description and without a newline, before one that has a line over
the limit. -/
theorem readText_append_blank_open_description :
    let config : Config := { lineLimit := 16 }
    let s : Text := "Package: a\nDescription: d\n body".toList
    let t : Text := "Package: b\n\nPackage: c\nSection: too long a line\n".toList
    let p : Package := { name := some ['a'], description := some "d\n body".toList }
    (readText .full config s).packages? = .ok [p] ∧
      (readText .full config (s ++ '\n' :: '\n' :: t)).packages =
        [p] ++ (readText .full config t).packages ∧
      (readText .full config (s ++ '\n' :: '\n' :: t)).failure =
        (readText .full config t).failure.map
          (Error.afterLines (Text.rows (s ++ ['\n', '\n'])).length) := by
  intro config s t p
  have h : (readText .full config s).packages? = .ok [p] :=
    readText_eq_ok_iff.2 ⟨by decide, by decide +kernel, by decide +kernel⟩
  exact ⟨h, readText_append_blank h⟩

end ControlFile

import ControlFile.Proofs.Harvest
import ControlFile.Proofs.Restriction
import ControlFile.Proofs.Values
import Mathlib.Algebra.Group.Nat.Defs

/-!
# Lines that are refused

Almost every value can be stored, or is malformed and passed over. The exception is a row of decimal
digits that is longer than a conversion handles: as a number, or as the epoch of a version, it is an error
that nobody in a reader takes care of. `Slot.refusal?` is that error for a value, `Text.refusal?` for a
line, and both are said without the record, the session or the lines before.

A session that goes on refuses a line for this reason and for no other (`Session.refused_iff`). So how the
reading of a text ends is known from its lines (`failure_readText`): it stops at the first line that is
refused, or at the first line over the limit, or it runs to the end. No record adds to this when it is
finished, since an epoch that was read is never too long to be written (`Session.Step.fits`).
-/

namespace ControlFile

/-! ### Values -/

/-- The error of a row of decimal digits that is too long to be converted. -/
def Numeral.refusal? (t : Text) : Option Error :=
  if isDecimalText t = true ∧ digitLimit < t.length then some (.tooManyDigits t.length) else none

/-- The error of a version whose epoch is too long to be converted. -/
def Version.refusal? (value : Text) : Option Error :=
  (Text.cut? ':' (Field.bareValue .version value)).bind fun (epoch, _) => Numeral.refusal? epoch

/-- The error of a value that the slot of its field cannot take. -/
def Slot.refusal? : Slot → Text → Option Error
  | .number _, value => Numeral.refusal? value.trim
  | .version, value => Version.refusal? value
  | .text _, _ | .switch _, _ | .relation _, _ | .architecture, _ | .status, _ => none

/-- A decimal text fails to be converted for its length only. -/
theorem Numeral.readDecimal_eq_error_iff {t : Text} {e : Error} (h : isDecimalText t = true) :
    readDecimal t = .error e ↔ refusal? t = some e := by
  unfold readDecimal refusal?
  by_cases hlong : digitLimit < t.length
  · simp [h, hlong]
  · simp [hlong]

/-- An epoch fails to be read only if it is a decimal text that is too long. -/
theorem Version.readEpoch_eq_error_iff {t : Text} {e : Error} :
    readEpoch t = .error e ↔ Numeral.refusal? t = some e := by
  unfold readEpoch
  by_cases hd : Numeral.isDecimalText t = true
  · rw [if_pos hd, Numeral.readDecimal_eq_error_iff hd]
  · -- Any other text before the colon is no epoch.
    simp [hd, Numeral.refusal?]

/-- A version is refused for its epoch or not at all. -/
theorem Version.ofText?_eq_error_iff {value : Text} {e : Error} :
    ofText? value = .error e ↔ refusal? value = some e := by
  unfold refusal?
  -- Without a colon nothing is converted. With one it is the text before it that is.
  cases hcut : Text.cut? ':' (Field.bareValue .version value) with
  | none => simp [ofText?_of_cut?_eq_none hcut]
  | some parts =>
    obtain ⟨epoch, rest⟩ := parts
    rw [ofText?_of_cut?_eq_some hcut, Option.bind_some, ← readEpoch_eq_error_iff]
    cases readEpoch epoch with
    | ok n => simp [Except.map]
    | error cause => simp [Except.map]

namespace Package

variable {p : Package} {value : Text} {e : Error}

/-- A number cannot be stored only if it is a decimal text that is too long. -/
theorem putNumber_eq_error_iff {target : NumberAttribute} :
    p.putNumber target value = .error e ↔ Numeral.refusal? value.trim = some e := by
  unfold putNumber Numeral.readUnsigned
  by_cases hd : Numeral.isDecimalText value.trim = true
  · rw [if_pos hd, ← Numeral.readDecimal_eq_error_iff hd]
    unfold Numeral.readDecimal
    split_ifs <;> simp
  · -- A text that is no row of decimal digits is a number or malformed, and both are dealt with.
    rw [if_neg hd]
    cases Numeral.hex? value.trim <;> simp [Numeral.refusal?, hd]

theorem putVersion_eq_error_iff :
    p.putVersion value = .error e ↔ Version.refusal? value = some e := by
  rw [← Version.ofText?_eq_error_iff, putVersion]
  cases Version.ofText? value <;> simp [Except.map]

/-- **What a record cannot take.** Storing a value fails for a row of digits that is too long, in a number
or in an epoch, and never otherwise. -/
theorem put_eq_error_iff {entries : List ArchPriority} {slot : Slot} :
    p.put entries slot value = .error e ↔ slot.refusal? value = some e := by
  cases slot with
  | number target => exact putNumber_eq_error_iff
  | version => exact putVersion_eq_error_iff
  | text | switch | relation | architecture | status => simp [put, Slot.refusal?]

end Package

/-! ### Lines -/

/-- The error of a line that holds a value that its field cannot take, if the field is selected. -/
def Text.refusal? (mask : FieldSet) (line : Text) : Option Error :=
  ((Header.ofLine? line).filter (·.field ∈ mask)).bind fun h =>
    match h.field.kind with
    | .single slot => slot.refusal? (Header.valueAfter h.name line)
    | .description | .conffiles => none

/-- The one reason for which a line is refused is a number of too many digits. -/
theorem Text.refusal?_eq_some {mask : FieldSet} {line : Text} {e : Error}
    (h : line.refusal? mask = some e) : ∃ n, e = .tooManyDigits n := by
  obtain ⟨hd, -, hrefusal⟩ := Option.bind_eq_some_iff.1 h
  split at hrefusal
  · -- Storing the value in any record fails with this error.
    have hput : Package.put {} [] _ _ = .error e := Package.put_eq_error_iff.2 hrefusal
    exact Package.put_eq_error hput
  · cases hrefusal
  · cases hrefusal

namespace Session

variable {s s' fresh : Session} {line : Text} {lines : List Text} {o : Outcome} {last : Option Error}

/-- The refusal of a selected header is that of its value. -/
theorem refusal?_of_header? {h : Header} (hh : s.header? line = some h) :
    line.refusal? s.mask = match h.field.kind with
      | .single slot => slot.refusal? (Header.valueAfter h.name line)
      | .description | .conffiles => none := by
  rw [Text.refusal?, show (Header.ofLine? line).filter (·.field ∈ s.mask) = some h from hh]
  rfl

theorem refusal?_of_header?_eq_none (hh : s.header? line = none) : line.refusal? s.mask = none := by
  rw [Text.refusal?, show (Header.ofLine? line).filter (·.field ∈ s.mask) = none from hh]
  rfl

/-- **Why a line is refused.** It is the line alone that decides, as long as the record goes on. -/
theorem Step.refused_iff {cause : Error} (h : s.Step line s' o) (hf : s.finished = false) :
    o = .refused cause ↔ line.refusal? s.mask = some cause := by
  cases h with
  | late hf' => simp [hf] at hf'
  | text hp hb => simp [refusal?_of_header?_eq_none (header?_of_space (head?_of_isBody hb))]
  | file hp hb =>
    rw [refusal?_of_header?_eq_none (header?_of_space (head?_of_isBody hb))]
    split <;> simp
  | blank hf hb hl => simp [refusal?_of_header?_eq_none (header?_of_allBlank hl)]
  | other hf hb hl hh => simp [refusal?_of_header?_eq_none hh]
  | @single h slot built hf hh hk hput =>
    -- The value was stored, so it is not one of those that cannot be.
    have hstored : slot.refusal? (Header.valueAfter h.name line) ≠ some cause := by
      intro hrefusal
      rw [Package.put_eq_error_iff.2 hrefusal] at hput
      cases hput
    rw [refusal?_of_header? hh, hk]
    refine iff_of_false ?_ hstored
    split <;> simp
  | refused hf hh hk hput =>
    rw [refusal?_of_header? hh, hk]
    simp only [Package.put_eq_error_iff.1 hput, Outcome.refused.injEq, Option.some.injEq]
  | description hf hh hk => simp [refusal?_of_header? hh, hk]
  | conffiles hf hh hk => simp [refusal?_of_header? hh, hk]

/-- A line that is read is none of those that would be refused. -/
theorem Step.refusal?_eq_none (h : s.Step line s' o) (hf : s.finished = false)
    (ho : ∀ cause, o ≠ .refused cause) : line.refusal? s.mask = none := by
  rw [Option.eq_none_iff_forall_ne_some]
  intro cause hcause
  exact ho cause ((h.refused_iff hf).2 hcause)

/-- What a session refuses is told by the line, while the record goes on. -/
theorem refused_iff {cause : Error} (hf : s.finished = false) :
    (s.feed line).outcome = .refused cause ↔ line.refusal? s.mask = some cause :=
  (s.feed_step line).refused_iff hf

end Session

/-! ### Epochs that were read -/

/-- A number has no more digits than it is written with. -/
theorem Numeral.ofDigits_lt {base : Nat} {digits : List Nat} (h : ∀ d ∈ digits, d < base) :
    ofDigits base digits < base ^ digits.length := by
  -- The last digit counts for less than one of the number before it.
  induction digits using List.reverseRecOn with
  | nil => simp
  | append_singleton digits d ih =>
    have hd : d < base := h d (by simp)
    have hbefore : ofDigits base digits < base ^ digits.length := ih fun e he => h e (by simp [he])
    rw [ofDigits_concat, List.length_append, List.length_singleton, Nat.pow_succ, Nat.mul_comm _ base]
    calc base * ofDigits base digits + d
      _ < base * (ofDigits base digits + 1) := by rw [Nat.mul_add]; omega
      _ ≤ base * base ^ digits.length := Nat.mul_le_mul_left base hbefore

/-- A number that was converted can be converted back. -/
theorem Numeral.fits_of_readDecimal {t : Text} {n : Nat} (h : readDecimal t = .ok n) :
    fits n = true := by
  unfold readDecimal at h
  unfold fits
  -- The power of ten is far too large to be looked at.
  generalize digitLimit = limit at h ⊢
  split_ifs at h with hlong
  obtain rfl := Except.ok.inj h
  have hdigits : ∀ d ∈ t.filterMap decimalValue?, d < 10 := by
    intro d hd
    obtain ⟨c, -, hc⟩ := List.mem_filterMap.1 hd
    exact decimalValue?_lt hc
  have hlength : (t.filterMap decimalValue?).length ≤ limit :=
    (List.length_filterMap_le _ t).trans (by omega)
  rw [decide_eq_true_iff, Int.natAbs_natCast, Nat.pow_eq]
  exact (ofDigits_lt hdigits).trans_le (Nat.pow_le_pow_right (by decide) hlength)

theorem Numeral.fits_zero : fits 0 = true := by
  unfold fits
  generalize digitLimit = limit
  exact decide_eq_true (Nat.pow_pos (by decide))

/-- The epoch of a version that was read is short enough to be written. -/
theorem Version.fits_of_ofText? {value : Text} {v : Version} (h : ofText? value = .ok v) :
    Numeral.fits v.epoch = true := by
  rcases cases_ofText? h with ⟨-, rfl⟩ | ⟨epoch, rest, n, -, hread, rfl⟩
  · rw [(ofParts_eq 0 _).1]
    exact Numeral.fits_zero
  · rw [(ofParts_eq n rest).1]
    -- Digits were converted within the limit, and whatever is no number counts as zero.
    unfold readEpoch at hread
    split_ifs at hread
    · exact Numeral.fits_of_readDecimal hread
    · obtain rfl := Except.ok.inj hread
      exact Numeral.fits_zero

namespace Package

variable {p : Package}

theorem fits_put {entries : List ArchPriority} {slot : Slot} {value : Text} {built : Built}
    (hp : Numeral.fits p.epoch = true) (hput : p.put entries slot value = .ok built) :
    Numeral.fits built.package.epoch = true := by
  by_cases hslot : slot.field = .version
  · cases slot with
    | version =>
      obtain ⟨v, hv, rfl⟩ := putVersion_eq_ok_iff.1 hput
      exact Version.fits_of_ofText? hv
    | text a | number a | switch a | relation a => cases a <;> cases hslot
    | architecture | status => cases hslot
  · -- Any other slot leaves the epoch alone.
    have hsame := put_restrict_of_not_mem (e := .single .version)
      (by rwa [FieldSet.mem_single]) hput
    have hepoch : built.package.epoch = p.epoch := by
      simpa [restrict] using congrArg Package.epoch hsame
    exact (congrArg Numeral.fits hepoch).trans hp

/-- A version can be written if its epoch is short enough. -/
theorem exists_fullVersionText?_of_fits (hp : Numeral.fits p.epoch = true) :
    ∃ version, p.fullVersionText? = .ok version := by
  unfold fullVersionText? fullVersion
  cases p.version with
  | none => exact ⟨none, rfl⟩
  | some base =>
    simp only [Option.map_some, Version.text?, Numeral.signed?_of_fits hp]
    exact ⟨_, rfl⟩

/-- A record whose epoch is short enough can be told of. -/
theorem failure_harvest_of_fits (hp : Numeral.fits p.epoch = true) (rest : Harvest) :
    (p.harvest rest).failure = rest.failure := by
  cases hname : p.name with
  | none => rw [harvest_of_name_eq_none hname]
  | some name =>
    obtain ⟨version, hversion⟩ := exists_fullVersionText?_of_fits hp
    rw [harvest_of_name hname hversion, Harvest.after_failure]

end Package

namespace Session

variable {s s' fresh : Session} {line : Text} {lines : List Text} {o : Outcome} {last : Option Error}

theorem epoch_close (s : Session) : s.close.package.epoch = s.package.epoch := by
  unfold close
  split <;> rfl

/-- The epoch of a record stays short enough. -/
theorem Step.fits (h : s.Step line s' o) (hs : Numeral.fits s.package.epoch = true) :
    Numeral.fits s'.package.epoch = true := by
  cases h with
  | late | text | refused => exact hs
  | file hp hb =>
    unfold Package.addConffile
    split
    · exact hs
    · exact hs
  | blank | other | description | conffiles =>
    exact (congrArg Numeral.fits (epoch_close s)).trans hs
  | single hf hh hk hput =>
    rw [epoch_close]
    exact Package.fits_put hs hput

/-! ### How a reading ends -/

/-- **The first line that is refused ends the reading**, and otherwise what follows the lines does. -/
theorem failure_harvest (hs : s.finished = false) (hfresh : fresh.finished = false)
    (hmask : fresh.mask = s.mask) (hfits : Numeral.fits s.package.epoch = true)
    (hfits' : Numeral.fits fresh.package.epoch = true) :
    (s.harvest fresh lines last).failure = (lines.findSome? (Text.refusal? s.mask)).or last := by
  induction lines generalizing s with
  | nil =>
    cases last with
    | none =>
      rw [harvest, finish_package, Package.failure_harvest_of_fits (by rwa [epoch_close])]
      rfl
    | some cause => rfl
  | cons line lines ih =>
    obtain ⟨s', o, hstep⟩ := exists_step s line
    rw [List.findSome?_cons]
    cases o with
    | refused cause =>
      -- The reading ends with the first refusal, which the line alone tells.
      rw [harvest_of_refused hstep, (hstep.refused_iff hs).1 rfl]
      rfl
    | ended =>
      -- The record adds no failure of its own, and a fresh session goes on with the lines behind.
      rw [harvest_of_ended hstep, hstep.refusal?_eq_none hs (by simp), finish_package,
        Package.failure_harvest_of_fits (by rw [epoch_close]; exact hstep.fits hfits)]
      rw [ih hfresh rfl hfits', hmask]
    | goesOn | malformed =>
      rw [harvest_of_goesOn hstep (by simp), hstep.refusal?_eq_none hs (by simp),
        ih (hstep.not_finished (by simp)) (by rw [hmask, hstep.mask_eq]) (hstep.fits hfits),
        hstep.mask_eq]

end Session

variable {m : FieldSet} {c : Config} {t : Text}

/-- The first line within the limit that is refused ends the reading of a text, and otherwise the first
line over the limit does. -/
theorem failure_readText (hc : Source.isCountable c.lineLimit = true) :
    (readText m c t).failure =
      ((t.within c.lineLimit).findSome? (Text.refusal? (.effective m c.forced))).or
        (t.lost? c.lineLimit) := by
  -- A new record has an epoch of zero, which starts the invariant.
  have hfits : Numeral.fits (Session.start {} m c).package.epoch = true := Numeral.fits_zero
  have hread : (readText m c t).harvest = _ := harvest_readText hc
  have hfailure := congrArg Harvest.failure hread
  rw [Session.failure_harvest rfl rfl rfl hfits hfits] at hfailure
  exact hfailure

/-- A limit that cannot be counted is refused at once. -/
theorem failure_readText_of_not_countable (hc : Source.isCountable c.lineLimit = false) :
    (readText m c t).failure = some (.lookaheadOutOfRange .memory) :=
  congrArg Harvest.failure (harvest_readText_of_not_countable hc)

/-- **When no malformed value stops a reading**: none of the lines up to the first one over the limit is
refused. -/
theorem failure_readText_eq_none_or_recordsLost_iff :
    ((readText m c t).failure = none ∨
        ∃ source line, (readText m c t).failure = some (.recordsLost source line)) ↔
      Source.isCountable c.lineLimit = true ∧
        ∀ line ∈ t.within c.lineLimit, line.refusal? (.effective m c.forced) = none := by
  cases hc : Source.isCountable c.lineLimit with
  | false => simp [failure_readText_of_not_countable hc]
  | true =>
    rw [failure_readText hc, ← List.findSome?_eq_none_iff]
    cases hfirst : (t.within c.lineLimit).findSome? (Text.refusal? (.effective m c.forced)) with
    | none =>
      -- Only a line over the limit is left to end the reading.
      simp only [Option.none_or, true_and, iff_true]
      unfold Text.lost?
      split
      · exact .inl rfl
      · exact .inr ⟨_, _, rfl⟩
    | some e =>
      obtain ⟨line, -, hrefusal⟩ := List.exists_of_findSome?_eq_some hfirst
      obtain ⟨n, rfl⟩ := Text.refusal?_eq_some hrefusal
      simp

/-- **Malformed values stop nothing** except a row of too many digits. A record takes every other value of
every field, and a configuration file of any line. So a text is read to its end, or to the first line over
the limit, after which its records are lost, exactly when no selected field has such a row in a line
before; otherwise the first row of this kind ends the reading. -/
theorem put_eq_error_iff_and_readText_failure (p : Package) (entries : List ArchPriority) (slot : Slot)
    (value : Text) (e : Error) (m : FieldSet) (c : Config) (t : Text) :
    (p.put entries slot value = .error e ↔ slot.refusal? value = some e) ∧
    (((readText m c t).failure = none ∨
        ∃ source line, (readText m c t).failure = some (.recordsLost source line)) ↔
      Source.isCountable c.lineLimit = true ∧
        ∀ line ∈ t.within c.lineLimit, line.refusal? (.effective m c.forced) = none) ∧
    (readText m c t).failure =
      if Source.isCountable c.lineLimit = true then
        ((t.within c.lineLimit).findSome? (Text.refusal? (.effective m c.forced))).or
          (t.lost? c.lineLimit)
      else some (.lookaheadOutOfRange .memory) := by
  refine ⟨Package.put_eq_error_iff, failure_readText_eq_none_or_recordsLost_iff, ?_⟩
  cases hc : Source.isCountable c.lineLimit with
  | true => exact failure_readText hc
  | false => exact failure_readText_of_not_countable hc

/-- A size of too many digits ends the reading of a text, and the record is lost for no fault of its
source. -/
theorem not_failure_readText :
    ¬∀ (m : FieldSet) (c : Config) (t : Text), (readText m c t).failure = none ∨
      ∃ source line, (readText m c t).failure = some (.recordsLost source line) := by
  intro h
  let t : Text := "Package: a\nSize: ".toList ++ List.replicate 4301 '1' ++ ['\n']
  have hfailure : (readText .full {} t).failure = some (.tooManyDigits 4301) := by
    -- The size is the only line that is refused.
    rw [failure_readText (by decide)]
    decide +kernel
  rcases h .full {} t with hnone | ⟨source, line, hlost⟩
  · rw [hfailure] at hnone
    cases hnone
  · rw [hfailure] at hlost
    cases hlost

end ControlFile

import ControlFile.Proofs.Refusal

/-!
# Versions and their texts

A version is read by two cuts and written by two joins, and each join undoes a cut. So the text of a
version that was read is the text that it was read from, but for the epoch (`Version.text_of_ofText?`).
An epoch of zero is not written, be it an explicit zero or what is left of an epoch that is no number.
Nothing marks its place then, and this decides which versions are read back from their texts
(`Version.ofText?_text_iff`): where no epoch is written, a colon would end one, and a blank at the
front would be trimmed away.

A version that was read is divided where a reader divides it, and its text does not end with a blank. It
can change when it is written and read again all the same (`Version.not_ofText?_text_of_read`), and it does so
exactly where its epoch is zero and its text has a colon or starts with a blank
(`Version.ofText?_text_iff_of_read`).
-/

namespace ControlFile

/-- A text is refused as a number only for being a row of too many decimal digits. -/
theorem Numeral.refusal?_eq_some_iff {t : Text} {cause : Error} :
    refusal? t = some cause ↔
      isDecimalText t = true ∧ digitLimit < t.length ∧ cause = .tooManyDigits t.length := by
  unfold refusal?
  split_ifs with hlong
  · simp [hlong.1, hlong.2, eq_comm]
  · simp only [false_iff]
    exact fun h => hlong ⟨h.1, h.2.1⟩

namespace Version

variable {v : Version} {value epoch rest : Text} {n : Nat}

/-! ### What is written of a version -/

theorem text?_of_fits (h : Numeral.fits v.epoch = true) : v.text? = .ok v.text := by
  rw [text?, Numeral.signed?_of_fits h]
  rfl

theorem text_of_epoch_eq_zero (h : v.epoch = 0) : v.text = v.tail := by
  rw [text_eq, epochText, if_pos h, List.nil_append]

/-- An epoch is written in plain digits with a colon behind them, if it is not zero. -/
theorem epochText_natCast (n : Nat) :
    epochText n = if 0 < n then Numeral.decimal n ++ [':'] else [] := by
  rw [epochText, Numeral.signed_natCast]
  rcases Nat.eq_zero_or_pos n with rfl | hn
  · rfl
  · rw [if_neg (by omega), if_pos hn]

/-- The parts behind the epoch have a colon between them only in themselves: they are joined by a
hyphen. -/
theorem colon_not_mem_tail_iff :
    ':' ∉ v.tail ↔ ':' ∉ v.base ∧ ∀ revision ∈ v.revision, ':' ∉ revision := by
  rw [tail]
  cases v.revision with
  | none => simp [revisionText]
  | some revision => simp [revisionText]

/-- With an empty base and an empty revision only the epoch and a hyphen are written, and there is no
blank in these. -/
theorem isWord_epochText_append (n : Nat) : (epochText n ++ ['-']).IsWord := by
  refine ⟨by simp, fun c hc => ?_⟩
  rw [epochText_natCast] at hc
  split_ifs at hc
  · simp only [List.append_assoc, List.mem_append, List.mem_cons, List.not_mem_nil, or_false] at hc
    rcases hc with hc | rfl | rfl
    · exact (Numeral.isWord_decimal n).not_isBlank c hc
    · rfl
    · rfl
  · obtain rfl : c = '-' := by simpa using hc
    rfl

/-! ### What reading keeps of a text -/

/-- An epoch is the number of its digits, and zero if it is no number. -/
theorem readEpoch_eq_ok (h : readEpoch epoch = .ok n) :
    n = if Numeral.isDecimalText epoch = true then Numeral.ofDecimals epoch else 0 := by
  unfold readEpoch Numeral.readDecimal at h
  split_ifs at h ⊢
  · exact (Except.ok.inj h).symm
  · exact (Except.ok.inj h).symm

/-- A text with a colon, of which the epoch was read: only the spelling of the epoch is lost. -/
theorem text_ofParts_readEpoch (h : readEpoch epoch = .ok n) (rest : Text) :
    (ofParts n rest).text =
      if Numeral.isDecimalText epoch = true ∧ 0 < Numeral.ofDecimals epoch then
        Numeral.decimal (Numeral.ofDecimals epoch) ++ ':' :: rest
      else rest := by
  rw [text_ofParts, epochText_natCast, readEpoch_eq_ok h]
  -- There are three kinds of epoch: a positive number, which is written again, zero, and what is no
  -- number.
  by_cases hdecimal : Numeral.isDecimalText epoch = true
  · rw [if_pos hdecimal]
    by_cases hpos : 0 < Numeral.ofDecimals epoch
    · rw [if_pos hpos, if_pos ⟨hdecimal, hpos⟩, List.append_assoc, List.singleton_append]
    · rw [if_neg hpos, if_neg fun hboth => hpos hboth.2, List.nil_append]
  · rw [if_neg hdecimal, if_neg (Nat.lt_irrefl 0), if_neg fun hboth => hdecimal hboth.1,
      List.nil_append]

/-- **When a version is refused**: there is a colon, with a row of too many digits in front of the first
one. -/
theorem ofText?_eq_error_iff_exists {cause : Error} :
    ofText? value = .error cause ↔
      ∃ epoch rest, Field.bareValue .version value = epoch ++ ':' :: rest ∧ ':' ∉ epoch ∧
        Numeral.isDecimalText epoch = true ∧ Numeral.digitLimit < epoch.length ∧
        cause = .tooManyDigits epoch.length := by
  rw [ofText?_eq_error_iff, refusal?, Option.bind_eq_some_iff]
  constructor
  · rintro ⟨⟨epoch, rest⟩, hcut, hrefusal⟩
    exact ⟨epoch, rest, Text.eq_append_of_cut? hcut, Text.not_mem_of_cut? hcut,
      Numeral.refusal?_eq_some_iff.1 hrefusal⟩
  · rintro ⟨epoch, rest, ht, hcolon, hrefusal⟩
    exact ⟨(epoch, rest), by rw [ht, Text.cut?_append_cons _ hcolon],
      Numeral.refusal?_eq_some_iff.2 hrefusal⟩

theorem remarks_of_cut?_eq_none {package : Option Text}
    (h : Text.cut? ':' (Field.bareValue .version value) = none) : remarks package value = [] := by
  simp only [remarks, h]

theorem remarks_of_cut?_eq_some {package : Option Text}
    (h : Text.cut? ':' (Field.bareValue .version value) = some (epoch, rest)) :
    remarks package value =
      if Numeral.isDecimalText epoch = true then []
      else [.invalidEpoch package epoch (Field.bareValue .version value)] := by
  simp only [remarks, h]

theorem level_of_mem_remarks {package : Option Text} {event : Event}
    (h : event ∈ remarks package value) : event.level = .warning := by
  obtain ⟨epoch, text, rfl⟩ := eq_of_mem_remarks h
  rfl

/-- **A version keeps all of its text but the spelling of its epoch.** It is read from a text `t` without
the name of the field and the blanks around it, unless what stands before the first colon is a row of too
many digits. Written again it is `t` if there is no colon; otherwise it has the number before the first
colon in plain digits, or neither number nor colon where that is zero or no number, and the same text
after it. Only what is no number is remarked on, in one warning. There is a revision exactly if there is
a hyphen after the epoch, and no hyphen is in it. -/
theorem text_of_ofText? (package : Option Text) (value : Text) :
    let t := Text.trim (Text.dropLead "Version:".toList value)
    (∀ cause, ofText? value = .error cause ↔
      ∃ epoch rest, t = epoch ++ ':' :: rest ∧ ':' ∉ epoch ∧ Numeral.isDecimalText epoch = true ∧
        Numeral.digitLimit < epoch.length ∧ cause = .tooManyDigits epoch.length) ∧
    ∀ v, ofText? value = .ok v →
      (':' ∉ t → v.text? = .ok t ∧ remarks package value = [] ∧ (v.revision = none ↔ '-' ∉ t)) ∧
      (∀ epoch rest, t = epoch ++ ':' :: rest → ':' ∉ epoch →
        v.text? = .ok
          (if Numeral.isDecimalText epoch = true ∧ 0 < Numeral.ofDecimals epoch then
            Numeral.decimal (Numeral.ofDecimals epoch) ++ ':' :: rest
          else rest) ∧
        remarks package value =
          (if Numeral.isDecimalText epoch = true then [] else [.invalidEpoch package epoch t]) ∧
        (v.revision = none ↔ '-' ∉ rest)) ∧
      (∀ revision, v.revision = some revision → '-' ∉ revision) ∧
      ∀ event ∈ remarks package value, event.level = .warning := by
  intro t
  have ht : Field.bareValue .version value = t := rfl
  refine ⟨fun cause => ofText?_eq_error_iff_exists, fun v h => ?_⟩
  have htext : v.text? = .ok v.text := text?_of_fits (fits_of_ofText? h)
  refine ⟨fun hcolon => ?_, fun epoch rest hsplit hcolon => ?_, fun revision hrevision => ?_,
    fun event => level_of_mem_remarks⟩
  · -- Without a colon all of the text is divided, and written as it was.
    have hcut : Text.cut? ':' (Field.bareValue .version value) = none := Text.cut?_eq_none hcolon
    rw [ofText?_of_cut?_eq_none hcut] at h
    obtain rfl := Except.ok.inj h
    refine ⟨htext.trans ?_, ?_, revision_ofParts_eq_none_iff⟩
    · rw [text_ofParts]
      rfl
    · exact remarks_of_cut?_eq_none hcut
  · -- The text is cut at its first colon, since no other stands before it.
    have hcut : Text.cut? ':' (Field.bareValue .version value) = some (epoch, rest) := by
      rw [ht, hsplit, Text.cut?_append_cons _ hcolon]
    obtain ⟨n, hread, rfl⟩ := exists_epoch_of_ofText? hcut h
    refine ⟨htext.trans ?_, ?_, revision_ofParts_eq_none_iff⟩
    · rw [text_ofParts_readEpoch hread]
    · exact remarks_of_cut?_eq_some hcut
  · -- A revision begins behind the last hyphen.
    have hdivided := (isRead_of_ofText? h).divided
    rwa [Divided, hrevision] at hdivided

/-- Two colons, two hyphens, and something other than a number before the first colon. -/
theorem text_of_ofText?_no_number :
    let value : Text := "Version: 1x:2:3-4-5".toList
    let v : Version := ⟨0, "2:3-4".toList, some "5".toList⟩
    ofText? value = .ok v ∧ v.text? = .ok "2:3-4-5".toList ∧
      remarks (some "a".toList) value =
        [.invalidEpoch (some "a".toList) "1x".toList "1x:2:3-4-5".toList] := by
  intro value v
  have hread : ofText? value = .ok v := by decide +kernel
  obtain ⟨-, hkept⟩ := text_of_ofText? (some "a".toList) value
  obtain ⟨-, hcolon, -, -⟩ := hkept v hread
  obtain ⟨htext, hremarks, -⟩ := hcolon "1x".toList "2:3-4-5".toList (by decide) (by decide)
  exact ⟨hread, htext, hremarks⟩

/-! ### Versions that are read back -/

/-- What is read back from its text has an epoch there, or needs none. -/
theorem isPlain_of_ofText?_text (h : ofText? v.text = .ok v) : v.IsPlain := by
  intro hzero
  rcases cases_ofText? h with ⟨hcut, hv⟩ | ⟨epoch, rest, n, hcut, -, hv⟩
  · -- Without a colon it is the bare value that was divided, and nothing is written in front of it.
    have htext : v.text = Field.bareValue .version v.text := by
      calc v.text
        _ = (ofParts 0 (Field.bareValue .version v.text)).text := congrArg text hv
        _ = epochText 0 ++ Field.bareValue .version v.text := text_ofParts 0 _
        _ = Field.bareValue .version v.text := rfl
    rw [htext]
    exact ⟨Text.not_mem_of_cut?_eq_none hcut, (Text.trimmed_trim _).head⟩
  · -- With a colon the text would be what stands after that colon within itself.
    exfalso
    have hn : (n : Int) = 0 := by rw [← hzero, hv, (ofParts_eq n rest).1]
    have htext : v.text = rest := by
      calc v.text
        _ = (ofParts n rest).text := congrArg text hv
        _ = epochText n ++ rest := text_ofParts n rest
        _ = rest := by rw [hn]; rfl
    have hlength := (Field.bareValue_sublist .version v.text).length_le
    rw [Text.eq_append_of_cut? hcut, htext, List.length_append, List.length_cons] at hlength
    omega

/-- **Which versions are read back from their texts.** There is no hyphen in the part that a reader takes
from the last hyphen on, no colon where no epoch is written, and no blank at the ends of the text. So a
version with an epoch may have colons anywhere, and an empty base with an empty revision is no
obstacle. -/
theorem ofText?_text_iff (n : Nat) (base : Text) (revision : Option Text)
    (hn : n < 10 ^ Numeral.digitLimit) :
    let v : Version := ⟨n, base, revision⟩
    v.text? = .ok v.text ∧
      (ofText? v.text = .ok v ↔
        v.Divided ∧ (n = 0 → ':' ∉ base ∧ ∀ r ∈ revision, ':' ∉ r) ∧ v.text.Trimmed) ∧
      (0 < n → v.Divided → v.text.Trimmed → ofText? v.text = .ok v) ∧
      ofText? (text ⟨n, [], some []⟩) = .ok ⟨n, [], some []⟩ := by
  intro v
  have hfits : Numeral.fits n = true := Numeral.fits_natCast.2 hn
  refine ⟨text?_of_fits hfits, ⟨fun h => ?_, fun h => ?_⟩, fun hpos hdivided htrimmed => ?_, ?_⟩
  · -- What is read back has been read, so it has the form of what was read, and its epoch is found.
    have hread := isRead_of_ofText? h
    have hplain := isPlain_of_ofText?_text h
    refine ⟨hread.divided, fun hzero => ?_, hread.trimmed_text hplain⟩
    have hepoch : v.epoch = 0 := congrArg Nat.cast hzero
    exact colon_not_mem_tail_iff.1 (text_of_epoch_eq_zero hepoch ▸ (hplain hepoch).1)
  · obtain ⟨hdivided, hcolon, htrimmed⟩ := h
    refine ofText?_text rfl hfits hdivided htrimmed fun hzero => ?_
    have hepoch : v.epoch = 0 := congrArg Nat.cast hzero
    rw [text_of_epoch_eq_zero hepoch]
    exact colon_not_mem_tail_iff.2 (hcolon hzero)
  · exact ofText?_text rfl hfits hdivided htrimmed fun hzero => absurd hzero (by omega)
  · have htext : text ⟨n, [], some []⟩ = epochText n ++ ['-'] := text_eq _
    refine ofText?_text rfl hfits List.not_mem_nil ?_ fun hzero => ?_
    · rw [htext]
      exact (isWord_epochText_append n).trimmed
    · rw [htext, hzero]
      decide

/-- Colons in the base, hyphens before the revision, and an empty revision. -/
theorem ofText?_text_iff_colons :
    let v : Version := ⟨2, "1:4-beta".toList, some []⟩
    2 < 10 ^ Numeral.digitLimit ∧ v.text = "2:1:4-beta-".toList ∧ ofText? v.text = .ok v := by
  intro v
  have hn : 2 < 10 ^ Numeral.digitLimit := Numeral.fits_natCast.1 (by decide +kernel)
  obtain ⟨-, hiff, -, -⟩ := ofText?_text_iff 2 "1:4-beta".toList (some []) hn
  refine ⟨hn, by decide, hiff.2 ⟨List.not_mem_nil, by simp, ?_⟩⟩
  exact (Text.isWord_of_any (by decide) (by decide)).trimmed

/-- **Writing a version that was read, and reading it again.** This gives the same version if it has an
epoch, or if its text has no colon and starts with no blank, and not otherwise. The same holds of a record
whose version is put once more as it is written. -/
theorem ofText?_text_iff_of_read (h : ofText? value = .ok v) :
    v.text? = .ok v.text ∧
      (ofText? v.text = .ok v ↔
        (v.epoch = 0 → ':' ∉ v.text ∧ ∀ c, v.text.head? = some c → isBlank c = false)) ∧
      ∀ p : Package, ∃ built, p.putVersion value = .ok built ∧
        built.package.fullVersionText? = .ok (some v.text) ∧
        ((∃ again, built.package.putVersion v.text = .ok again ∧
            again.package.epoch = built.package.epoch ∧
            again.package.version = built.package.version ∧
            again.package.revision = built.package.revision) ↔
          (v.epoch = 0 → ':' ∉ v.text ∧ ∀ c, v.text.head? = some c → isBlank c = false)) := by
  have hfits := fits_of_ofText? h
  have hiff : ofText? v.text = .ok v ↔ v.IsPlain :=
    ⟨isPlain_of_ofText?_text, fun hplain => (isRead_of_ofText? h).ofText?_text hplain hfits⟩
  refine ⟨text?_of_fits hfits, hiff, fun p => ?_⟩
  refine ⟨_, Package.putVersion_eq_ok_iff.2 ⟨v, h, rfl⟩, ?_, ?_⟩
  · show (text? v).map some = _
    rw [text?_of_fits hfits]
    rfl
  · rw [show (v.epoch = 0 → _) ↔ ofText? v.text = .ok v from hiff.symm]
    constructor
    · rintro ⟨again, hagain, hepoch, hbase, hrevision⟩
      obtain ⟨v', hv', rfl⟩ := Package.putVersion_eq_ok_iff.1 hagain
      obtain ⟨epoch, base, revision⟩ := v'
      -- The same three parts are the same version.
      obtain rfl : epoch = v.epoch := hepoch
      obtain rfl : base = v.base := Option.some.inj hbase
      obtain rfl : revision = v.revision := hrevision
      exact hv'
    · intro hread
      exact ⟨_, Package.putVersion_eq_ok_iff.2 ⟨v, hread, rfl⟩, rfl, rfl, rfl⟩

/-- An epoch in digits of another script, a colon after it, and a blank after that. -/
theorem ofText?_text_iff_of_read_epoch :
    let value : Text := "Version: ٠٧: 1:2-3 ".toList
    let v : Version := ⟨7, " 1:2".toList, some "3".toList⟩
    ofText? value = .ok v ∧ v.text = "7: 1:2-3".toList ∧ ofText? v.text = .ok v ∧
      ∃ built, ({} : Package).putVersion value = .ok built ∧
        built.package.fullVersionText? = .ok (some v.text) := by
  intro value v
  have hread : ofText? value = .ok v := by decide +kernel
  obtain ⟨-, hiff, hput⟩ := ofText?_text_iff_of_read hread
  obtain ⟨built, hbuilt, htext, -⟩ := hput {}
  exact ⟨hread, by decide +kernel, hiff.2 (fun hzero => absurd hzero (by decide)), built, hbuilt, htext⟩

/-- A version with neither an epoch nor a revision is read as one with an epoch if there is a colon in
it. -/
theorem not_ofText?_text_of_read :
    ¬∀ (value : Text) (v : Version), ofText? value = .ok v → ofText? v.text = .ok v := by
  intro h
  have hread : ofText? "0:1:2".toList = .ok ⟨0, "1:2".toList, none⟩ := by decide
  have hagain : ofText? "1:2".toList = .ok ⟨1, "2".toList, none⟩ := by decide
  have hsame := h _ _ hread
  rw [show text ⟨0, "1:2".toList, none⟩ = "1:2".toList by decide, hagain] at hsame
  exact absurd hsame (by decide)

end Version

end ControlFile

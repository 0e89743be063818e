import ControlFile.Package.Basic
import ControlFile.Proofs.Recognition
import ControlFile.Proofs.Trimming
import Mathlib.Algebra.Group.Nat.Defs

/-!
# Values that are written and read

The value of a field on one line is written as a text without a newline, and read back from that text.

* A number of at most the limit of digits is read from its decimal text
  (`Numeral.readUnsigned_decimal`).
* A status is read from its three words (`Status.ofText?_text`); the flags are a list between commas
  (`FlagSet.ofText_text`).
* A version is read back if it is `Version.Divided` where a reader would divide it, if no blank stands
  at the ends of its text, and if an epoch of zero, which is not written, is not mistaken for one that
  is: the text must have no colon then (`Version.ofText?_text`).

Every version that was read is divided so (`Version.divided_ofText?`), and its text ends without a
blank. The other two conditions can fail for it.
-/

namespace ControlFile

/-! ### Values that carry no name -/

theorem Text.dropLead_eq_self {lead t : Text} (h : ¬lead <+: t) : dropLead lead t = t := by
  unfold dropLead
  cases hp : lead.isPrefixOf? t with
  | none => rfl
  | some rest => exact absurd ⟨rest, List.isPrefixOf?_eq_some_iff_append_eq.1 hp⟩ h

/-- A trimmed value that does not start with the name of its field is bare. -/
theorem Field.bareValue_eq_self {f : Field} {t : Text} (ht : t.Trimmed)
    (h : ¬f.name ++ [':'] <+: t) : f.bareValue t = t := by
  rw [bareValue, Text.dropLead_eq_self h, ht.trim_eq]

/-- A value that starts with another character than the name of its field does not repeat that name. -/
theorem Field.not_prefix_of_head? {f : Field} {t : Text} (h : t.head? ≠ f.name.head?) :
    ¬f.name ++ [':'] <+: t := by
  rintro ⟨rest, rfl⟩
  obtain ⟨c, name, hname⟩ : ∃ c name, f.name = c :: name := by cases f <;> exact ⟨_, _, rfl⟩
  exact h (by rw [hname]; rfl)

/-- Dropping a lead adds no character. -/
theorem Text.dropLead_sublist (lead t : Text) : (dropLead lead t).Sublist t := by
  unfold dropLead
  cases hp : lead.isPrefixOf? t with
  | none => exact List.Sublist.refl t
  | some rest =>
    rw [← List.isPrefixOf?_eq_some_iff_append_eq.1 hp]
    exact List.sublist_append_right lead rest

/-- A bare value has no character that the value does not have. -/
theorem Field.bareValue_sublist (f : Field) (t : Text) : (f.bareValue t).Sublist t :=
  (Text.trim_sublist _).trans (Text.dropLead_sublist _ t)

/-! ### Numbers -/

namespace Numeral

theorem decimalValue?_digitChar : ∀ d < 10, decimalValue? d.digitChar = some d := by decide

/-- Every character of a decimal text is a digit. -/
theorem isDecimal_of_mem_decimal {n : Nat} {c : Char} (h : c ∈ decimal n) : isDecimal c = true := by
  rw [isDecimal, decimalValue?_of_isDigit (Nat.isDigit_of_mem_toDigits (by decide) (by decide) h)]
  rfl

/-- A decimal text is recognised as one: it is not empty, and all its characters are digits. -/
theorem isDecimalText_decimal (n : Nat) : isDecimalText (decimal n) = true := by
  rw [isDecimalText, Bool.and_eq_true, List.all_eq_true]
  exact ⟨by simp [decimal], fun c hc => isDecimal_of_mem_decimal hc⟩

/-- The digits that are written for a number denote it. -/
theorem ofDecimals_decimal (n : Nat) : ofDecimals (decimal n) = n := by
  -- The last digit is split off, and the digits before it are those of a tenth.
  induction n using Nat.strong_induction_on with
  | _ n ih =>
    by_cases hn : n < 10
    · rw [decimal, Nat.toDigits_of_lt_base hn, ofDecimals, List.filterMap_cons,
        decimalValue?_digitChar n hn]
      simp [ofDigits]
    · rw [decimal, Nat.toDigits_of_base_le (by decide) (by omega), ofDecimals,
        List.filterMap_append, List.filterMap_cons,
        decimalValue?_digitChar _ (Nat.mod_lt n (by decide)), List.filterMap_nil, ofDigits_concat]
      have := ih (n / 10) (by omega)
      rw [ofDecimals, decimal] at this
      rw [this]
      omega

theorem isWord_decimal (n : Nat) : (decimal n).IsWord :=
  ⟨by simp [decimal], fun _ hc => isBlank_of_isDecimal (isDecimal_of_mem_decimal hc)⟩

/-- A number is short enough if its decimal text is, which is how the limit is meant. -/
theorem fits_iff {n : Int} : fits n = true ↔ (decimal n.natAbs).length ≤ digitLimit := by
  have hpos : 0 < digitLimit := by decide
  unfold fits
  -- The power of ten is far too large to be looked at.
  generalize digitLimit = limit at hpos ⊢
  rw [decide_eq_true_iff, Nat.pow_eq, decimal, Nat.length_toDigits_le_iff (by decide) hpos]

/-- A number is short enough if it is below the power of ten that has too many digits. -/
theorem fits_iff_lt {n : Int} : fits n = true ↔ n.natAbs < 10 ^ digitLimit := by
  unfold fits
  -- The power of ten is far too large to be looked at.
  generalize digitLimit = limit
  rw [decide_eq_true_iff, Nat.pow_eq]

theorem fits_natCast {n : Nat} : fits n = true ↔ n < 10 ^ digitLimit := by
  rw [fits_iff_lt, Int.natAbs_natCast]

/-- A row of digits within the limit is read as the number that it was written for. -/
theorem readDecimal_decimal {n : Nat} (h : fits n = true) : readDecimal (decimal n) = .ok n := by
  rw [fits_iff, Int.natAbs_natCast] at h
  rw [readDecimal, if_neg (by omega), ofDecimals_decimal]

/-- **A written number is read back.** -/
theorem readUnsigned_decimal {n : Nat} (h : fits n = true) : readUnsigned (decimal n) = .ok n := by
  rw [readUnsigned, (isWord_decimal n).trimmed.trim_eq, if_pos (isDecimalText_decimal n),
    readDecimal_decimal h]

end Numeral

/-! ### States -/

namespace FlagSet

/-- The names of flags are items of a list between commas, and words. -/
theorem isItem_word (f : Flag) : Text.IsItem ',' f.word ∧ f.word.IsWord := by
  have hword : f.word.IsWord := by cases f <;> exact Text.isWord_of_any (by decide) (by decide)
  exact ⟨⟨hword.ne_nil, hword.trimmed, by cases f <;> decide⟩, hword⟩

/-- Flags are written as one word, also where there are none. -/
theorem isWord_text (s : FlagSet) : s.text.IsWord := by
  unfold text
  split
  · exact Text.isWord_of_any (by decide) (by decide)
  · rename_i hne
    have hword : ∀ t ∈ s.toList.map Flag.word, t.IsWord := by
      intro t ht
      obtain ⟨g, -, rfl⟩ := List.mem_map.1 ht
      exact (isItem_word g).2
    -- Neither the names nor the commas between them have a blank.
    refine ⟨(Text.trimmed_join fun t ht => ⟨(hword t ht).trimmed, (hword t ht).ne_nil⟩).2
      (by simpa using hne), fun c hc => ?_⟩
    rcases Text.mem_join hc with hc | ⟨t, ht, hc⟩
    · rw [List.mem_singleton.1 hc]
      rfl
    · exact (hword t ht).not_isBlank c hc

/-- **Written flags are read back.** -/
theorem ofText_text (s : FlagSet) : ofText s.text = s := by
  refine ext_mem fun f => ?_
  rw [mem_ofText, text]
  split
  · rename_i hnil
    have hf : f ∉ s := by
      rw [← mem_toList, hnil]
      exact List.not_mem_nil
    -- No flag is written as a word of its own, which is the name of no flag.
    have hok : okWord.items ',' = [okWord] := by decide
    simp only [hok, List.mem_singleton, exists_eq_left, hf, iff_false]
    cases f <;> decide
  · -- The names are read back as a list, and a name is that of one flag.
    have hitem : ∀ t ∈ s.toList.map Flag.word, Text.IsItem ',' t := by
      intro t ht
      obtain ⟨g, -, rfl⟩ := List.mem_map.1 ht
      exact (isItem_word g).1
    rw [Text.items_join rfl (by simp) hitem]
    simp

end FlagSet

namespace Status

/-- Each of the three parts of a status is one word, so the parts are told apart by spaces. -/
theorem isWord_of_mem (s : Status) {t : Text}
    (ht : t ∈ [s.want.word, s.flags.text, s.stage.word]) : t.IsWord := by
  simp only [List.mem_cons, List.not_mem_nil, or_false] at ht
  rcases ht with rfl | rfl | rfl
  · cases s.want <;> exact Text.isWord_of_any (by decide) (by decide)
  · exact s.flags.isWord_text
  · cases s.stage <;> exact Text.isWord_of_any (by decide) (by decide)

theorem trimmed_text (s : Status) : s.text.Trimmed := by
  rw [text]
  exact (Text.trimmed_join fun t ht =>
    ⟨(s.isWord_of_mem ht).trimmed, (s.isWord_of_mem ht).ne_nil⟩).1

/-- A status is written on one line. -/
theorem newline_not_mem_text (s : Status) : '\n' ∉ s.text := by
  apply Text.not_mem_join (by decide)
  intro t ht hc
  exact absurd ((s.isWord_of_mem ht).not_isBlank '\n' hc) (by decide)

/-- **A written status is read back.** -/
theorem ofText?_text (s : Status) : ofText? s.text = .ok s := by
  have hbare : Field.bareValue .status s.text = s.text := by
    refine Field.bareValue_eq_self s.trimmed_text (Field.not_prefix_of_head? ?_)
    -- The first letter of the state is small, and that of the name is not.
    have hhead : s.text.head? = s.want.word.head? := by
      rw [text, Text.join_cons_cons]
      cases s.want <;> rfl
    rw [hhead]
    cases s.want <;> decide
  -- Each part is a word, so the text falls apart at the two spaces that join them.
  have hwords : words s.text = [s.want.word, s.flags.text, s.stage.word] := by
    rw [words, hbare, text, Text.words_join fun t ht => s.isWord_of_mem ht]
  rw [ofText?_eq_ok hwords, Want.ofText_word, FlagSet.ofText_text, Stage.ofText_word]

end Status

/-! ### Versions -/

namespace Text

variable {c : Char}

/-- A text is cut at the first occurrence, so there is none before it. -/
theorem not_mem_of_cut? {t a b : Text} (h : cut? c t = some (a, b)) : c ∉ a := by
  unfold cut? at h
  split at h
  · cases h
  · obtain ⟨rfl, -⟩ := Prod.mk.inj (Option.some.inj h)
    intro hc
    simpa using List.mem_takeWhile_imp hc

theorem cutLast?_eq_none {t : Text} (h : c ∉ t) : cutLast? c t = none := by
  rw [cutLast?, cut?_eq_none (by simpa using h)]
  rfl

/-- A text is cut at its last occurrence of a character, whatever stands before it. -/
theorem cutLast?_append_cons (a : Text) {b : Text} (h : c ∉ b) :
    cutLast? c (a ++ c :: b) = some (a, b) := by
  rw [cutLast?, List.reverse_append, List.reverse_cons, List.append_assoc, List.singleton_append,
    cut?_append_cons _ (by simpa using h)]
  simp

/-- What stands around the last occurrence of a character. -/
theorem eq_append_of_cutLast? {t a b : Text} (h : cutLast? c t = some (a, b)) :
    t = a ++ c :: b ∧ c ∉ b := by
  obtain ⟨⟨after, before⟩, hcut, hab⟩ := Option.map_eq_some_iff.1 h
  obtain ⟨rfl, rfl⟩ := Prod.mk.inj hab
  refine ⟨?_, by simpa using not_mem_of_cut? hcut⟩
  -- The last occurrence is the first one of the reversed text.
  have ht := congrArg List.reverse (eq_append_of_cut? hcut)
  simpa using ht

/-- A text that cannot be cut does not have the character. -/
theorem not_mem_of_cut?_eq_none {t : Text} (h : cut? c t = none) : c ∉ t := by
  intro hc
  obtain ⟨a, b, rfl, ha⟩ := List.eq_append_cons_of_mem hc
  simp [cut?_append_cons b ha] at h

theorem not_mem_of_cutLast?_eq_none {t : Text} (h : cutLast? c t = none) : c ∉ t := by
  rw [cutLast?, Option.map_eq_none_iff] at h
  simpa using not_mem_of_cut?_eq_none h

end Text

namespace Version

/-- A version that is divided at the last hyphen of what follows the epoch. -/
def Divided (v : Version) : Prop :=
  match v.revision with
  | some revision => '-' ∉ revision
  | none => '-' ∉ v.base

/-- The base and the revision as they are written. -/
def tail (v : Version) : Text := v.base ++ revisionText v.revision

theorem text_eq (v : Version) : v.text = epochText v.epoch ++ v.tail := List.append_assoc ..

/-- Dividing a text loses nothing. -/
theorem ofParts_eq (epoch : Int) (t : Text) :
    (ofParts epoch t).epoch = epoch ∧ (ofParts epoch t).tail = t ∧ (ofParts epoch t).Divided := by
  unfold ofParts
  cases h : Text.cutLast? '-' t with
  | none => exact ⟨rfl, List.append_nil t, Text.not_mem_of_cutLast?_eq_none h⟩
  | some parts =>
    obtain ⟨rfl, hmem⟩ := Text.eq_append_of_cutLast? h
    exact ⟨rfl, rfl, hmem⟩

/-- Dividing a text and writing the parts gives the text again, with the epoch in front. -/
theorem text_ofParts (epoch : Int) (t : Text) : (ofParts epoch t).text = epochText epoch ++ t := by
  obtain ⟨hepoch, htail, -⟩ := ofParts_eq epoch t
  rw [text_eq, hepoch, htail]

/-- There is a revision if there is a hyphen to divide at. -/
theorem revision_ofParts_eq_none_iff {epoch : Int} {t : Text} :
    (ofParts epoch t).revision = none ↔ '-' ∉ t := by
  unfold ofParts
  cases h : Text.cutLast? '-' t with
  | none => simp [Text.not_mem_of_cutLast?_eq_none h]
  | some parts => simp [(Text.eq_append_of_cutLast? h).1]

/-- A divided version is divided again in the same way. -/
theorem Divided.ofParts_tail {v : Version} (h : v.Divided) : ofParts v.epoch v.tail = v := by
  obtain ⟨epoch, base, _ | revision⟩ := v
  · rw [tail, revisionText, List.append_nil, ofParts, Text.cutLast?_eq_none h]
  · rw [tail, revisionText, ofParts, Text.cutLast?_append_cons base h]

/-- The colon behind a written epoch is the first one. -/
theorem colon_not_mem_decimal (n : Nat) : ':' ∉ Numeral.decimal n := by
  intro h
  exact absurd (Numeral.isDecimal_of_mem_decimal h) (by decide)

/-- Without a colon all of the value is divided, and the epoch is zero. -/
theorem ofText?_of_cut?_eq_none {value : Text}
    (h : Text.cut? ':' (Field.bareValue .version value) = none) :
    ofText? value = .ok (ofParts 0 (Field.bareValue .version value)) := by
  simp [ofText?, h]

/-- What stands before the first colon is read as an epoch, and only that can fail. -/
theorem ofText?_of_cut?_eq_some {value epoch rest : Text}
    (h : Text.cut? ':' (Field.bareValue .version value) = some (epoch, rest)) :
    ofText? value = (readEpoch epoch).map fun n => ofParts n rest := by
  simp only [ofText?, h]

/-- A version with a colon that is read has an epoch that was read. -/
theorem exists_epoch_of_ofText? {value epoch rest : Text} {v : Version}
    (hcut : Text.cut? ':' (Field.bareValue .version value) = some (epoch, rest))
    (h : ofText? value = .ok v) : ∃ n : Nat, readEpoch epoch = .ok n ∧ v = ofParts n rest := by
  rw [ofText?_of_cut?_eq_some hcut] at h
  cases hread : readEpoch epoch with
  | error cause =>
    rw [hread] at h
    cases h
  | ok n =>
    rw [hread] at h
    exact ⟨n, rfl, (Except.ok.inj h).symm⟩

/-- What reading a version comes to. A text without a colon is divided as it stands; otherwise the text
before the first colon is read as an epoch, and the text after it is divided. -/
theorem cases_ofText? {value : Text} {v : Version} (h : ofText? value = .ok v) :
    (Text.cut? ':' (Field.bareValue .version value) = none ∧
        v = ofParts 0 (Field.bareValue .version value)) ∨
      ∃ (epoch rest : Text) (n : Nat),
        Text.cut? ':' (Field.bareValue .version value) = some (epoch, rest) ∧
          readEpoch epoch = .ok n ∧ v = ofParts n rest := by
  cases hcut : Text.cut? ':' (Field.bareValue .version value) with
  | none =>
    rw [ofText?_of_cut?_eq_none hcut] at h
    exact .inl ⟨rfl, (Except.ok.inj h).symm⟩
  | some parts =>
    obtain ⟨n, hn⟩ := exists_epoch_of_ofText? hcut h
    exact .inr ⟨parts.1, parts.2, n, rfl, hn⟩

/-- **A written version is read back** if it is divided where a reader divides it, and if what is written
of it says where the epoch is. -/
theorem ofText?_text {v : Version} {n : Nat} (hepoch : v.epoch = n)
    (hfits : Numeral.fits n = true) (hdivided : v.Divided) (htrimmed : v.text.Trimmed)
    (hcolon : n = 0 → ':' ∉ v.text) : ofText? v.text = .ok v := by
  by_cases hn : n = 0
  · -- No epoch is written, and there is no colon that could be taken for the end of one.
    have htext : v.text = v.tail := by simp [text_eq, epochText, hepoch, hn]
    -- The name of the field would bring its colon with it.
    have hbare : Field.bareValue .version v.text = v.text := by
      refine Field.bareValue_eq_self htrimmed fun hprefix => hcolon hn ?_
      exact hprefix.subset (by simp)
    rw [ofText?_of_cut?_eq_none (by rw [hbare, Text.cut?_eq_none (hcolon hn)]), hbare, htext]
    have := hdivided.ofParts_tail
    rw [hepoch, hn] at this
    exact congrArg Except.ok this
  · have htext : v.text = Numeral.decimal n ++ ':' :: v.tail := by
      simp [text_eq, epochText, hepoch, hn]
    -- The text starts with a digit, and the name of the field does not.
    have hbare : Field.bareValue .version v.text = v.text := by
      refine Field.bareValue_eq_self htrimmed (Field.not_prefix_of_head? fun hhead => ?_)
      rw [htext, List.head?_append_of_ne_nil _ (Numeral.isWord_decimal n).ne_nil] at hhead
      have := Numeral.isDecimal_of_mem_decimal (List.mem_of_mem_head? hhead)
      exact absurd this (by decide)
    have hcut : Text.cut? ':' (Field.bareValue .version v.text) =
        some (Numeral.decimal n, v.tail) := by
      rw [hbare, htext, Text.cut?_append_cons _ (colon_not_mem_decimal n)]
    rw [ofText?_of_cut?_eq_some hcut, readEpoch, if_pos (Numeral.isDecimalText_decimal n),
      Numeral.readDecimal_decimal hfits]
    have := hdivided.ofParts_tail
    rw [hepoch] at this
    exact congrArg Except.ok this

/-- What reading a version gives: a natural number for the epoch, parts that a reader would divide so
again, and a text that has nothing of its own but the epoch and does not end with a blank. -/
structure IsRead (v : Version) (value : Text) : Prop where
  epoch : ∃ n : Nat, v.epoch = n
  divided : v.Divided
  tail : ∀ c ∈ v.tail, c ∈ value
  last : ∀ c, v.text.getLast? = some c → isBlank c = false

/-- **What is read of a version.** -/
theorem isRead_of_ofText? {v : Version} {value : Text} (h : ofText? value = .ok v) :
    v.IsRead value := by
  have htrimmed : (Field.bareValue .version value).Trimmed := Text.trimmed_trim _
  have hmem : ∀ c ∈ Field.bareValue .version value, c ∈ value := fun c hc =>
    (Field.bareValue_sublist .version value).mem hc
  rcases cases_ofText? h with ⟨-, rfl⟩ | ⟨epoch, rest, n, hcut, -, rfl⟩
  · -- Nothing was cut off in front, so the text ends as the value does.
    obtain ⟨hepoch, htail, hdivided⟩ := ofParts_eq 0 (Field.bareValue .version value)
    refine ⟨⟨0, hepoch⟩, hdivided, by rwa [htail], ?_⟩
    rw [text_ofParts]
    exact htrimmed.last
  · obtain ⟨hepoch, htail, hdivided⟩ := ofParts_eq n rest
    have ht := Text.eq_append_of_cut? hcut
    refine ⟨⟨n, hepoch⟩, hdivided, ?_, ?_⟩
    · rw [htail]
      exact fun c hc => hmem c (by simp [ht, hc])
    · rw [text_ofParts]
      by_cases hrest : rest = []
      · -- Only an epoch, which ends with its colon, or nothing.
        rw [hrest, List.append_nil, epochText]
        split
        · simp
        · simp
      · rw [List.getLast?_append_of_ne_nil _ hrest]
        refine fun c hc => htrimmed.last c ?_
        rw [ht, List.getLast?_append_of_ne_nil _ (by simp), List.getLast?_cons_of_ne_nil hrest, hc]

/-- A version whose text says by itself that it has no epoch, or which it has. An epoch of zero is not
written, and then a colon would end another one, and blanks would not be kept. -/
def IsPlain (v : Version) : Prop :=
  v.epoch = 0 → ':' ∉ v.text ∧ ∀ c, v.text.head? = some c → isBlank c = false

/-- The text of a plain version that was read is trimmed. -/
theorem IsRead.trimmed_text {v : Version} {value : Text} (h : v.IsRead value) (hplain : v.IsPlain) :
    v.text.Trimmed := by
  refine ⟨fun c hc => ?_, h.last⟩
  obtain ⟨n, hn⟩ := h.epoch
  by_cases hzero : v.epoch = 0
  · exact (hplain hzero).2 c hc
  · -- A written epoch begins with a digit.
    rw [text_eq, epochText, if_neg hzero, hn, Numeral.signed_natCast, List.append_assoc,
      List.head?_append_of_ne_nil _ (Numeral.isWord_decimal n).ne_nil] at hc
    exact (Numeral.isWord_decimal n).trimmed.head c hc

/-- The text of a version has no newline if the text that it was read from has none. -/
theorem IsRead.newline_not_mem_text {v : Version} {value : Text} (h : v.IsRead value)
    (hvalue : '\n' ∉ value) : '\n' ∉ v.text := by
  obtain ⟨n, hn⟩ := h.epoch
  have hdecimal : '\n' ∉ Numeral.decimal n := fun hc =>
    absurd ((Numeral.isWord_decimal n).not_isBlank '\n' hc) (by decide)
  have htail : '\n' ∉ v.tail := fun hc => hvalue (h.tail '\n' hc)
  rw [text_eq, epochText, hn, Numeral.signed_natCast]
  split <;> simp [hdecimal, htail]

/-- **A plain version that was read is read back** from its text. -/
theorem IsRead.ofText?_text {v : Version} {value : Text} (h : v.IsRead value) (hplain : v.IsPlain)
    (hfits : Numeral.fits v.epoch = true) : ofText? v.text = .ok v := by
  obtain ⟨n, hn⟩ := h.epoch
  refine Version.ofText?_text hn (hn ▸ hfits) h.divided (h.trimmed_text hplain) fun hzero => ?_
  exact (hplain (by simp [hn, hzero])).1

/-- A version that can be written has an epoch that is short enough. -/
theorem fits_of_text? {v : Version} {t : Text} (h : v.text? = .ok t) :
    Numeral.fits v.epoch = true ∧ t = v.text := by
  unfold text? Numeral.signed? at h
  cases hf : Numeral.fits v.epoch with
  | true =>
    simp only [hf, if_true] at h
    exact ⟨rfl, (Except.ok.inj h).symm⟩
  | false => simp [hf, Except.map] at h

end Version

end ControlFile

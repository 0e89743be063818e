import ControlFile.Proofs.Values
import Mathlib.Data.List.Forall2
import Mathlib.Data.Nat.Digits.Defs
import Mathlib.Tactic.SplitIfs

/-!
# Unsigned numbers and their notations

The value of a numeric field is a number in one of two notations: decimal digits (`Numeral.IsDecimalNumeral`),
or a mark and hexadecimal digits (`Numeral.IsHexNumeral`). The digits are those of any script, and in the
second notation a group mark may stand in front of each of them (`Numeral.IsRow`). The two exclude each
other, since no mark is a decimal digit.

A value is read exactly if it is in one of the notations, as the number that its digits denote
(`Numeral.readUnsigned_eq_ok_iff`), and is malformed otherwise (`Numeral.readUnsigned_eq_error_iff`). Only
decimal rows beyond the limit are outside of this. The reader of a row with group marks splits it into groups
and puts these together again; that this accepts the rows of the grammar and no others is
`Numeral.groupedDigits?_eq_some_iff`, in which a row is taken apart digit by digit.

What is written for a number are digits that denote it (`Numeral.exists_forall₂_toDigits`), so written
numbers are read back, and in base sixteen without a limit.
-/

namespace ControlFile

namespace Numeral

variable {base : Nat} {t row : Text} {ds : List Nat} {c : Char} {d n : Nat}

/-! ### The value of a row of digits -/

/-- The number that a row of digits denotes, by the library's count from the least significant one. -/
theorem ofDigits_eq (base : Nat) (ds : List Nat) : ofDigits base ds = Nat.ofDigits base ds.reverse := by
  induction ds using List.reverseRecOn with
  | nil => rfl
  | append_singleton ds d ih =>
    rw [ofDigits_concat, List.reverse_append, List.reverse_singleton, List.singleton_append,
      Nat.ofDigits_cons, ih, Nat.add_comm]

theorem decimalValue?_underscore : decimalValue? '_' = none := by decide

theorem ne_underscore_of_digitValue? (h : digitValue? base c = some d) : c ≠ '_' := by
  rintro rfl
  rw [digitValue?, decimalValue?_underscore] at h
  cases h

/-! ### Group marks -/

/-- A row of digits, each of which may have one group mark in front of it. -/
inductive IsRow (isDigit : Char → Nat → Prop) : Text → List Nat → Prop
  | nil : IsRow isDigit [] []
  | digit {c : Char} {d : Nat} {t : Text} {ds : List Nat} (hc : isDigit c d)
    (h : IsRow isDigit t ds) : IsRow isDigit (c :: t) (d :: ds)
  | marked {c : Char} {d : Nat} {t : Text} {ds : List Nat} (hc : isDigit c d)
    (h : IsRow isDigit t ds) : IsRow isDigit ('_' :: c :: t) (d :: ds)

/-- A row is empty just where it has no digit: it never consists of marks alone. -/
theorem IsRow.eq_nil_iff {isDigit : Char → Nat → Prop} (h : IsRow isDigit t ds) :
    t = [] ↔ ds = [] := by
  cases h <;> simp

theorem dropLead_mark (t : Text) : Text.dropLead ['_'] ('_' :: t) = t := rfl

theorem dropLead_of_ne (h : c ≠ '_') (t : Text) : Text.dropLead ['_'] (c :: t) = c :: t := by
  apply Text.dropLead_eq_self
  intro hp
  exact h (List.cons_prefix_cons.1 hp).1.symm

theorem splitOn_mark (t : Text) : ('_' :: t).splitOn '_' = [] :: t.splitOn '_' :=
  List.splitOn_append_cons_self [] t

/-- Any other character goes to the first group. -/
theorem splitOn_of_ne (h : c ≠ '_') (t : Text) :
    (c :: t).splitOn '_' = (t.splitOn '_').modifyHead (c :: ·) := by
  rw [List.splitOn_cons_eq_if_modifyHead, if_neg (by simpa using h)]

/-- The marks are taken out if no group is empty. An empty group is a mark at an end, or a second mark
behind a first one. -/
theorem ungroup?_eq (t : Text) :
    ungroup? t = if [] ∈ t.splitOn '_' then none else some (t.splitOn '_').flatten := by
  -- The check asks each group whether it is empty, and so whether the empty group is among them.
  have hall : (t.splitOn '_').all (!·.isEmpty) = true ↔ [] ∉ t.splitOn '_' := by
    rw [List.all_eq_true]
    constructor
    · intro h hnil
      exact absurd (h [] hnil) (by decide)
    · intro h group hgroup
      cases group with
      | nil => exact absurd hgroup h
      | cons c group => rfl
  rw [ungroup?]
  by_cases h : [] ∈ t.splitOn '_'
  · rw [if_pos h, if_neg fun hgroups => hall.1 hgroups h]
  · rw [if_neg h, if_pos (hall.2 h)]

theorem ungroup?_mark (t : Text) : ungroup? ('_' :: t) = none := by
  rw [ungroup?_eq, splitOn_mark, if_pos List.mem_cons_self]

/-- A group mark may follow a digit if there is something behind the mark. -/
theorem ungroup?_cons (h : c ≠ '_') (t : Text) :
    ungroup? (c :: t) =
      if t = [] then some [c] else (ungroup? (Text.dropLead ['_'] t)).map (c :: ·) := by
  rw [ungroup?_eq, splitOn_of_ne h]
  cases t with
  | nil => rfl
  | cons x t =>
    rw [if_neg (List.cons_ne_nil x t), ungroup?_eq]
    by_cases hx : x = '_'
    · -- The mark ends the group that consists of the digit alone.
      rw [hx, dropLead_mark, splitOn_mark]
      by_cases hnil : [] ∈ t.splitOn '_'
      · simp [hnil]
      · simp [hnil]
    · -- The digit goes to the group of the character after it, which is not empty.
      obtain ⟨group, more, hgroups⟩ := List.exists_cons_of_ne_nil (List.splitOn_ne_nil '_' t)
      rw [dropLead_of_ne hx, splitOn_of_ne hx, hgroups]
      by_cases hnil : [] ∈ more
      · simp [hnil]
      · simp [hnil]

/-- The values of a row of digits, one by one. -/
theorem groupedDigits?_cons (h : c ≠ '_') (t : Text) :
    groupedDigits? base (c :: t) =
      (digitValue? base c).bind fun d =>
        if t = [] then some [d] else (groupedDigits? base (Text.dropLead ['_'] t)).map (d :: ·) := by
  rw [groupedDigits?, ungroup?_cons h]
  by_cases ht : t = []
  · simp [ht]
  · rw [if_neg ht, groupedDigits?]
    -- Whatever fails behind the digit makes the whole row fail, in whichever order it is noticed.
    cases ungroup? (Text.dropLead ['_'] t) with
    | none => cases digitValue? base c <;> simp [ht]
    | some digits =>
      cases hc : digitValue? base c with
      | none => simp [hc]
      | some d => cases hd : digits.mapM (digitValue? base) <;> simp [ht, hc, hd]

/-- At most one mark stands in front of what is left after dropping one. -/
theorem eq_dropLead_mark (t : Text) :
    t = Text.dropLead ['_'] t ∨ t = '_' :: Text.dropLead ['_'] t := by
  cases t with
  | nil => exact .inl rfl
  | cons c t =>
    by_cases hc : c = '_'
    · rw [hc]
      exact .inr rfl
    · exact .inl (dropLead_of_ne hc t).symm

/-- A digit in front of a row that is read is read with it. -/
theorem groupedDigits?_cons_of_isRow (hc : digitValue? base c = some d)
    (hrow : IsRow (fun c d => digitValue? base c = some d) t ds)
    (hread : ds ≠ [] → groupedDigits? base (Text.dropLead ['_'] t) = some ds) :
    groupedDigits? base (c :: t) = some (d :: ds) := by
  rw [groupedDigits?_cons (ne_underscore_of_digitValue? hc), hc, Option.bind_some]
  split_ifs with ht
  · rw [hrow.eq_nil_iff.1 ht]
  · rw [hread (mt hrow.eq_nil_iff.2 ht)]
    rfl

/-- A digit that is read has a row behind it that is read. -/
theorem exists_isRow_of_groupedDigits?_cons (h : groupedDigits? base (c :: t) = some ds)
    (hread : ∀ ds', groupedDigits? base (Text.dropLead ['_'] t) = some ds' →
      IsRow (fun c d => digitValue? base c = some d) t ds') :
    ∃ d ds', digitValue? base c = some d ∧ ds = d :: ds' ∧
      IsRow (fun c d => digitValue? base c = some d) t ds' := by
  have hc : c ≠ '_' := by
    rintro rfl
    rw [groupedDigits?, ungroup?_mark] at h
    cases h
  rw [groupedDigits?_cons hc, Option.bind_eq_some_iff] at h
  obtain ⟨d, hd, hds⟩ := h
  split_ifs at hds with ht
  · exact ⟨d, [], hd, (Option.some.inj hds).symm, ht ▸ .nil⟩
  · obtain ⟨ds', hds', rfl⟩ := Option.map_eq_some_iff.1 hds
    exact ⟨d, ds', hd, rfl, hread ds' hds'⟩

/-- **A row with group marks is read exactly if it is one**: every digit may have a mark in front of it, and
there is a digit. -/
theorem groupedDigits?_eq_some_iff :
    groupedDigits? base (Text.dropLead ['_'] t) = some ds ↔
      IsRow (fun c d => digitValue? base c = some d) t ds ∧ ds ≠ [] := by
  constructor
  · -- Behind its first digit a row goes on like a row: with a digit, or with a mark and a digit.
    intro h
    induction hn : t.length using Nat.strong_induction_on generalizing t ds with
    | _ n ih =>
      subst hn
      cases hu : Text.dropLead ['_'] t with
      | nil =>
        rw [hu] at h
        cases h
      | cons c rest =>
        have hlt : rest.length < t.length := by
          have hle := (Text.dropLead_sublist ['_'] t).length_le
          rw [hu, List.length_cons] at hle
          omega
        rw [hu] at h
        -- The rest is shorter by the digit at least, and by its mark if there is one.
        obtain ⟨d, ds', hd, rfl, hrow⟩ :=
          exists_isRow_of_groupedDigits?_cons h fun ds' hds' => (ih _ hlt hds' rfl).1
        refine ⟨?_, List.cons_ne_nil d ds'⟩
        rcases eq_dropLead_mark t with ht | ht
        · rw [ht, hu]
          exact .digit hd hrow
        · rw [ht, hu]
          exact .marked hd hrow
  · rintro ⟨hrow, hne⟩
    induction hrow with
    | nil => exact absurd rfl hne
    | digit hc hrow ih =>
      -- There is no mark to drop in front of the digit.
      rw [dropLead_of_ne (ne_underscore_of_digitValue? hc), groupedDigits?_cons_of_isRow hc hrow ih]
    | marked hc hrow ih =>
      rw [dropLead_mark, groupedDigits?_cons_of_isRow hc hrow ih]

theorem IsRow.of_forall₂ {isDigit : Char → Nat → Prop} (h : List.Forall₂ isDigit t ds) :
    IsRow isDigit t ds := by
  induction h with
  | nil => exact .nil
  | cons hc _ ih => exact .digit hc ih

/-! ### The two notations of an unsigned number -/

/-- The letters that are digits above nine, with their values. -/
def hexLetters : List (Char × Nat) :=
  [('a', 10), ('b', 11), ('c', 12), ('d', 13), ('e', 14), ('f', 15),
    ('A', 10), ('B', 11), ('C', 12), ('D', 13), ('E', 14), ('F', 15)]

/-- A digit of base sixteen and its value: a decimal digit of any script, or a letter. -/
inductive IsHexDigit : Char → Nat → Prop
  | decimal {c : Char} {d : Nat} (h : decimalValue? c = some d) : IsHexDigit c d
  | letter {c : Char} {d : Nat} (h : (c, d) ∈ hexLetters) : IsHexDigit c d

/-- A decimal numeral: a row of decimal digits of any script, at least one of them. -/
def IsDecimalNumeral (t : Text) (n : Nat) : Prop :=
  t ≠ [] ∧ ∃ ds, List.Forall₂ (fun c d => decimalValue? c = some d) t ds ∧
    n = Nat.ofDigits 10 ds.reverse

/-- A hexadecimal numeral: a mark, and a row of digits with group marks, at least one digit of it. -/
def IsHexNumeral (t : Text) (n : Nat) : Prop :=
  ∃ row ds, (t = '0' :: 'x' :: row ∨ t = '0' :: 'X' :: row) ∧ IsRow IsHexDigit row ds ∧ ds ≠ [] ∧
    n = Nat.ofDigits 16 ds.reverse

/-- The twelve letters have the values of the table, and are no decimal digits. -/
theorem letterValue?_of_mem_hexLetters :
    ∀ l ∈ hexLetters, decimalValue? l.1 = none ∧ letterValue? l.1 = some l.2 ∧ l.2 < 16 := by
  decide

/-- A character is known by its distance from one before it. -/
theorem exists_eq_ofNat_add {first : Nat} (h : first ≤ c.toNat) :
    ∃ k, c.toNat = first + k ∧ c = Char.ofNat (first + k) := by
  obtain ⟨k, hk⟩ := Nat.exists_eq_add_of_le h
  refine ⟨k, hk, ?_⟩
  rw [← hk, Char.ofNat_toNat]

/-- A letter with a value below sixteen is one of the twelve. -/
theorem mem_hexLetters (h : letterValue? c = some d) (hd : d < 16) : (c, d) ∈ hexLetters := by
  -- The value of a letter is ten more than its distance from the first one of its case.
  have hfrom : ∀ first, (∀ k < 6, (Char.ofNat (first + k), k + 10) ∈ hexLetters) → first ≤ c.toNat →
      c.toNat - first + 10 = d → (c, d) ∈ hexLetters := by
    intro first hletters hc hvalue
    obtain ⟨k, hk, hchar⟩ := exists_eq_ofNat_add hc
    obtain rfl : k + 10 = d := by omega
    rw [hchar]
    exact hletters k (by omega)
  unfold letterValue? at h
  split_ifs at h with hlower hupper
  · have hfirst : 'a'.val ≤ c.val := of_decide_eq_true (Bool.and_eq_true_iff.1 hlower).1
    exact hfrom 97 (by decide) (UInt32.le_iff_toNat_le.1 hfirst) (Option.some.inj h)
  · have hfirst : 'A'.val ≤ c.val := (of_decide_eq_true hupper).1
    exact hfrom 65 (by decide) (UInt32.le_iff_toNat_le.1 hfirst) (Option.some.inj h)

/-- A digit of a base is a decimal digit, or else a letter, with a value below the base. -/
theorem digitValue?_eq_some_iff :
    digitValue? base c = some d ↔
      (decimalValue? c = some d ∨ decimalValue? c = none ∧ letterValue? c = some d) ∧ d < base := by
  rw [digitValue?, Option.filter_eq_some_iff, Option.or_eq_some_iff, decide_eq_true_iff]

/-- The digits that are read in base sixteen are the hexadecimal ones. -/
theorem digitValue?_sixteen_eq_some_iff : digitValue? 16 c = some d ↔ IsHexDigit c d := by
  rw [digitValue?_eq_some_iff]
  constructor
  · rintro ⟨hdecimal | ⟨-, hletter⟩, hd⟩
    · exact .decimal hdecimal
    · exact .letter (mem_hexLetters hletter hd)
  · intro h
    cases h with
    | decimal hdecimal => exact ⟨.inl hdecimal, (decimalValue?_lt hdecimal).trans (by decide)⟩
    | letter hletter =>
      obtain ⟨hnone, hvalue, hd⟩ := letterValue?_of_mem_hexLetters _ hletter
      exact ⟨.inr ⟨hnone, hvalue⟩, hd⟩

/-- A row of decimal digits is one whose characters all are digits, and their values are read off one by
one. -/
theorem forall₂_decimalValue?_iff :
    List.Forall₂ (fun c d => decimalValue? c = some d) t ds ↔
      (∀ c ∈ t, isDecimal c = true) ∧ ds = t.filterMap decimalValue? := by
  induction t generalizing ds with
  | nil => simp
  | cons c t ih =>
    rw [List.forall₂_cons_left_iff, List.forall_mem_cons]
    constructor
    · rintro ⟨d, ds', hc, hrow, rfl⟩
      obtain ⟨hall, rfl⟩ := ih.1 hrow
      refine ⟨⟨?_, hall⟩, ?_⟩
      · rw [isDecimal, hc]
        rfl
      · rw [List.filterMap_cons, hc]
    · rintro ⟨⟨hc, hall⟩, rfl⟩
      obtain ⟨d, hd⟩ := Option.isSome_iff_exists.1 hc
      refine ⟨d, t.filterMap decimalValue?, hd, ih.2 ⟨hall, rfl⟩, ?_⟩
      rw [List.filterMap_cons, hd]

theorem isDecimalText_iff : isDecimalText t = true ↔ t ≠ [] ∧ ∀ c ∈ t, isDecimal c = true := by
  rw [isDecimalText, Bool.and_eq_true, List.all_eq_true]
  simp

/-- **Decimal numerals** are the texts that pass the check, with the number that is read from them. -/
theorem isDecimalNumeral_iff : IsDecimalNumeral t n ↔ isDecimalText t = true ∧ n = ofDecimals t := by
  rw [isDecimalText_iff, IsDecimalNumeral, and_assoc, ofDecimals, ofDigits_eq]
  refine and_congr_right fun _ => ?_
  constructor
  · rintro ⟨ds, hrow, rfl⟩
    obtain ⟨hall, rfl⟩ := forall₂_decimalValue?_iff.1 hrow
    exact ⟨hall, rfl⟩
  · rintro ⟨hall, rfl⟩
    exact ⟨_, forall₂_decimalValue?_iff.2 ⟨hall, rfl⟩, rfl⟩

/-- Behind the mark a row of hexadecimal digits is read, as the number that it denotes. -/
theorem hexAfterMark?_eq_some_iff :
    hexAfterMark? row = some n ↔
      ∃ ds, IsRow IsHexDigit row ds ∧ ds ≠ [] ∧ n = Nat.ofDigits 16 ds.reverse := by
  have hdigit : (fun c d => digitValue? 16 c = some d) = IsHexDigit := by
    ext c d
    exact digitValue?_sixteen_eq_some_iff
  rw [hexAfterMark?, Option.map_eq_some_iff]
  refine exists_congr fun ds => ?_
  rw [groupedDigits?_eq_some_iff, hdigit, ofDigits_eq, and_assoc, eq_comm (a := n)]

/-- **Hexadecimal numerals** are the texts that are read behind a mark. -/
theorem hex?_eq_some_iff : hex? t = some n ↔ IsHexNumeral t n := by
  unfold hex?
  split
  · simp [IsHexNumeral, hexAfterMark?_eq_some_iff]
  · simp [IsHexNumeral, hexAfterMark?_eq_some_iff]
  · rename_i hsmall hcapital
    simp only [false_iff, IsHexNumeral, reduceCtorEq]
    rintro ⟨row, ds, ht | ht, -⟩
    · exact hsmall row ht
    · exact hcapital row ht

/-- The two notations exclude each other. -/
theorem IsHexNumeral.not_isDecimalText (h : IsHexNumeral t n) : ¬isDecimalText t = true := by
  rw [isDecimalText_iff]
  rintro ⟨-, hall⟩
  obtain ⟨row, ds, rfl | rfl, -⟩ := h
  · exact absurd (hall 'x' (by simp)) (by decide)
  · exact absurd (hall 'X' (by simp)) (by decide)

/-- **A value is read if it is a numeral** of one notation or the other, unless it is too long a row of
decimal digits. -/
theorem readUnsigned_eq_ok_iff {value : Text}
    (hlimit : isDecimalText value.trim = true → value.trim.length ≤ digitLimit) :
    readUnsigned value = .ok n ↔ IsDecimalNumeral value.trim n ∨ IsHexNumeral value.trim n := by
  rw [isDecimalNumeral_iff, readUnsigned]
  by_cases hdecimal : isDecimalText value.trim = true
  · -- The notations exclude each other, so the reader may try them one after the other.
    have hhex : ¬IsHexNumeral value.trim n := fun h => h.not_isDecimalText hdecimal
    have hlength := hlimit hdecimal
    rw [if_pos hdecimal, readDecimal, if_neg (by omega)]
    simp only [hdecimal, hhex, true_and, or_false, Except.ok.injEq, eq_comm]
  · rw [if_neg hdecimal, ← hex?_eq_some_iff]
    cases hex? value.trim with
    | none => simp [hdecimal]
    | some m => simp [hdecimal]

/-- **A value that is no numeral is malformed**, and there is no other error for a value that is not too
long. -/
theorem readUnsigned_eq_error_iff {value : Text} {cause : Error}
    (hlimit : isDecimalText value.trim = true → value.trim.length ≤ digitLimit) :
    readUnsigned value = .error cause ↔
      cause = .malformed (.number value) ∧
        ∀ n, ¬(IsDecimalNumeral value.trim n ∨ IsHexNumeral value.trim n) := by
  simp only [← readUnsigned_eq_ok_iff hlimit]
  -- The one other error is that of too many digits, which the limit rules out.
  have hmalformed : ∀ e, readUnsigned value = .error e → e = .malformed (.number value) := by
    intro e he
    unfold readUnsigned readDecimal at he
    split_ifs at he with hdecimal hlong
    · have hlength := hlimit hdecimal
      omega
    · split at he
      · cases he
      · exact (Except.error.inj he).symm
  cases hread : readUnsigned value with
  | ok m => simp
  | error e => simp [hmalformed e hread, eq_comm]

/-! ### Written numbers -/

/-- The characters that are written for digits have the values that they are written for, in every base
up to sixteen. -/
theorem digitValue?_digitChar (hd : d < base) (hbase : base ≤ 16) :
    digitValue? base d.digitChar = some d := by
  have hvalue : ∀ d < 16, decimalValue? d.digitChar = some d ∨
      decimalValue? d.digitChar = none ∧ letterValue? d.digitChar = some d := by decide
  exact digitValue?_eq_some_iff.2 ⟨hvalue d (by omega), hd⟩

/-- The digits that are written for a number denote it. -/
theorem exists_forall₂_toDigits (hbase : 1 < base) (hbase' : base ≤ 16) (n : Nat) :
    ∃ ds, List.Forall₂ (fun c d => digitValue? base c = some d) (Nat.toDigits base n) ds ∧
      Nat.ofDigits base ds.reverse = n := by
  -- The last digit is split off, and the digits before it are those of the quotient.
  induction n using Nat.strong_induction_on with
  | _ n ih =>
    by_cases hn : n < base
    · refine ⟨[n], ?_, Nat.ofDigits_singleton⟩
      rw [Nat.toDigits_of_lt_base hn]
      exact .cons (digitValue?_digitChar hn hbase') .nil
    · obtain ⟨ds, hrow, hvalue⟩ := ih (n / base) (Nat.div_lt_self (by omega) hbase)
      have hd : n % base < base := Nat.mod_lt n (by omega)
      refine ⟨ds ++ [n % base], ?_, ?_⟩
      · rw [Nat.toDigits_of_base_le hbase (by omega)]
        exact List.rel_append hrow (.cons (digitValue?_digitChar hd hbase') .nil)
      · rw [List.reverse_append, List.reverse_singleton, List.singleton_append, Nat.ofDigits_cons,
          hvalue]
        exact Nat.mod_add_div n base

/-- What is written in base sixteen is a numeral. -/
theorem isHexNumeral_hexadecimal (n : Nat) : IsHexNumeral (hexadecimal n) n := by
  obtain ⟨ds, hrow, hvalue⟩ := exists_forall₂_toDigits (show 1 < 16 by decide) (by decide) n
  refine ⟨Nat.toDigits 16 n, ds, .inl rfl, ?_, ?_, hvalue.symm⟩
  · apply IsRow.of_forall₂
    exact hrow.imp fun c d => digitValue?_sixteen_eq_some_iff.1
  · -- Zero too is written with a digit.
    rintro rfl
    exact Nat.toDigits_ne_nil (List.forall₂_nil_right_iff.1 hrow)

/-- No digit is a blank, whatever its script. -/
theorem IsHexDigit.not_isBlank (h : IsHexDigit c d) : isBlank c = false := by
  cases h with
  | decimal hdecimal =>
    apply isBlank_of_isDecimal
    rw [isDecimal, hdecimal]
    rfl
  | letter hletter =>
    have hletters : ∀ l ∈ hexLetters, isBlank l.1 = false := by decide
    exact hletters _ hletter

theorem isWord_hexadecimal (n : Nat) : (hexadecimal n).IsWord := by
  obtain ⟨ds, hrow, -⟩ := exists_forall₂_toDigits (show 1 < 16 by decide) (by decide) n
  have hdigits : ∀ c ∈ Nat.toDigits 16 n, isBlank c = false := by
    -- The characters are paired with their values, and each is a digit for that reason.
    refine ((List.forall₂_and_left _ ds).1 (hrow.imp fun c d hc => ⟨?_, hc⟩)).1
    exact (digitValue?_sixteen_eq_some_iff.1 hc).not_isBlank
  refine ⟨List.cons_ne_nil _ _, ?_⟩
  rw [hexadecimal, List.forall_mem_cons, List.forall_mem_cons]
  exact ⟨rfl, rfl, hdigits⟩

/-- A number that is written in base sixteen is read back, however large it is. -/
theorem readUnsigned_hexadecimal (n : Nat) : readUnsigned (hexadecimal n) = .ok n := by
  have htrim : (hexadecimal n).trim = hexadecimal n := (isWord_hexadecimal n).trimmed.trim_eq
  -- No limit applies, since the text is in the second notation.
  have hhex : IsHexNumeral (hexadecimal n).trim n := by
    rw [htrim]
    exact isHexNumeral_hexadecimal n
  exact (readUnsigned_eq_ok_iff fun hdecimal => absurd hdecimal hhex.not_isDecimalText).2 (.inr hhex)

/-- **An unsigned number is read exactly if it is written in one of two notations**, between blanks: decimal
digits of any script, or a mark and hexadecimal digits, which may have single group marks in front of them.
The number is the one that the digits denote, and any other value is malformed, as long as it is no row of
too many decimal digits. The texts that are written for a number are read back, in base sixteen without a
limit. -/
theorem readUnsigned_isNumeral :
    (∀ value : Text, ((∀ c ∈ value.trim, isDecimal c = true) → value.trim.length ≤ digitLimit) →
      (∀ n, readUnsigned value = .ok n ↔
        IsDecimalNumeral value.trim n ∨ IsHexNumeral value.trim n) ∧
      ∀ cause, readUnsigned value = .error cause ↔
        cause = .malformed (.number value) ∧
          ∀ n, ¬(IsDecimalNumeral value.trim n ∨ IsHexNumeral value.trim n)) ∧
    (∀ n, n < 10 ^ digitLimit → readUnsigned (decimal n) = .ok n) ∧
    ∀ n, readUnsigned (hexadecimal n) = .ok n := by
  refine ⟨fun value hlimit => ?_, fun n hn => readUnsigned_decimal (fits_natCast.2 hn),
    readUnsigned_hexadecimal⟩
  have hlimit' : isDecimalText value.trim = true → value.trim.length ≤ digitLimit := fun h =>
    hlimit (isDecimalText_iff.1 h).2
  exact ⟨fun n => readUnsigned_eq_ok_iff hlimit', fun cause => readUnsigned_eq_error_iff hlimit'⟩

/-- A capital mark, group marks before and between the digits, a letter, and a digit of another script. -/
theorem readUnsigned_isNumeral_marked :
    let value : Text := "\t0X_1f_\u0663 ".toList
    ((∀ c ∈ value.trim, isDecimal c = true) → value.trim.length ≤ digitLimit) ∧
      readUnsigned value = .ok 499 := by
  intro value
  have hlimit : (∀ c ∈ value.trim, isDecimal c = true) → value.trim.length ≤ digitLimit := fun _ => by
    decide
  obtain ⟨hread, -⟩ := readUnsigned_isNumeral.1 value hlimit
  refine ⟨hlimit, (hread 499).2 (.inr ⟨"_1f_\u0663".toList, [1, 15, 3], .inr ?_, ?_, ?_, ?_⟩)⟩
  · decide
  · exact .marked (.decimal (by decide)) (.digit (.letter (by decide))
      (.marked (.decimal (by decide)) .nil))
  · decide
  · decide

end Numeral

end ControlFile

import ControlFile.Config
import ControlFile.Proofs.Names
import ControlFile.Proofs.Numerals

/-!
# Settings that are written and read

Three settings are texts in three notations, and each is read back from what is written for it.

* A list of architectures is written as entries between blanks and commas (`ArchPriority.IsListing`), and an
  entry as a name, a colon and a number, of which a zero may be left out with its colon
  (`ArchPriority.IsEntry`). Lists that are put one behind the other are read one after the other
  (`ArchPriority.ofList?_append_cons`), so that a list is read by recursion on its entries.
* A set of fields is written as items between commas, each of them the name of a field in any case or nothing
  but blanks (`FieldSet.IsListing`). The order of the items and their number are of no account.
* A line limit is written in decimal.

An environment that holds such texts gives back the configuration that they were written for
(`Config.ofEnvironment?_readsBack`).
-/

namespace ControlFile

/-! ### Results of a list -/

/-- The error of a list of results is that of one of them. -/
theorem Except.exists_of_mapM_eq_error {ε α β : Type} {f : α → Except ε β} {as : List α} {e : ε}
    (h : as.mapM f = .error e) : ∃ a ∈ as, f a = .error e := by
  induction as with
  | nil => cases h
  | cons a as ih =>
    rw [List.mapM_cons] at h
    -- Either this result is the error, or all before it are fine and the error comes later.
    cases ha : f a with
    | error e' =>
      rw [ha] at h
      cases h
      exact ⟨a, List.mem_cons_self, ha⟩
    | ok b =>
      cases has : as.mapM f with
      | error e' =>
        rw [ha, has] at h
        cases h
        obtain ⟨a', hmem, ha'⟩ := ih has
        exact ⟨a', List.mem_cons_of_mem a hmem, ha'⟩
      | ok bs =>
        rw [ha, has] at h
        cases h

/-! ### Numbers in settings -/

namespace Numeral

variable {n : Nat} {c : Char}

/-- A decimal text begins with no zero, unless it is the text of zero. -/
theorem head?_decimal_ne_zero (hn : n ≠ 0) : (decimal n).head? ≠ some '0' := by
  -- The first digit is that of a tenth, unless there is one digit only.
  induction n using Nat.strong_induction_on with
  | _ n ih =>
    by_cases hlt : n < 10
    · rw [decimal, Nat.toDigits_of_lt_base hlt]
      intro h
      exact hn (Nat.digitChar_eq_zero.1 (Option.some.inj h))
    · rw [decimal, Nat.toDigits_of_base_le (by decide) (by omega),
        List.head?_append_of_ne_nil _ Nat.toDigits_ne_nil]
      exact ih (n / 10) (by omega) (by omega)

theorem signed_ne_nil (p : Int) : signed p ≠ [] := by
  unfold signed
  split_ifs
  · exact List.cons_ne_nil _ _
  · exact (isWord_decimal _).ne_nil

theorem plainDigit_of_isDigit (h : c.isDigit = true) : plainDigit c = c := by
  have hdigits : ∀ k < 10, plainDigit (Char.ofNat (48 + k)) = Char.ofNat (48 + k) := by decide
  obtain ⟨hfirst, hlast⟩ := toNat_of_isDigit h
  obtain ⟨k, hk, hchar⟩ := exists_eq_ofNat_add hfirst
  rw [hchar]
  exact hdigits k (by omega)

/-- A decimal text consists of plain digits. -/
theorem map_plainDigit_decimal (n : Nat) : (decimal n).map plainDigit = decimal n := by
  have hdigits : ∀ c ∈ decimal n, plainDigit c = id c := fun c hc =>
    plainDigit_of_isDigit (Nat.isDigit_of_mem_toDigits (by decide) (by decide) hc)
  rw [List.map_congr_left hdigits, List.map_id]

theorem withSign?_minus {read : Text → Option Nat} {t : Text} (h : read t = some n) :
    withSign? read ('-' :: t) = some (-(n : Int)) := by
  rw [withSign?, h]
  rfl

/-- A decimal text begins with no sign, so all of it is read. -/
theorem withSign?_decimal {read : Text → Option Nat} (h : read (decimal n) = some n) :
    withSign? read (decimal n) = some (n : Int) := by
  -- Signs are no digits, so the text does not begin with one.
  have hsign : ∀ c t, isDecimal c = false → decimal n ≠ c :: t := by
    intro c t hc heq
    rw [isDecimal_of_mem_decimal (heq ▸ List.mem_cons_self)] at hc
    cases hc
  unfold withSign?
  split
  · rename_i t heq
    exact absurd heq (hsign '-' t (by decide))
  · rename_i t heq
    exact absurd heq (hsign '+' t (by decide))
  · rw [h]
    rfl

/-- A decimal text is a row of digits without group marks. -/
theorem groupedDecimal?_decimal (h : n < 10 ^ digitLimit) : groupedDecimal? (decimal n) = some n := by
  obtain ⟨ds, hrow, hvalue⟩ := exists_forall₂_toDigits (show 1 < 10 by decide) (by decide) n
  have hlead : Text.dropLead ['_'] (decimal n) = decimal n := by
    refine Text.dropLead_eq_self fun hp => ?_
    have := isDecimal_of_mem_decimal (hp.subset (List.mem_singleton_self '_'))
    exact absurd this (by decide)
  have hds : groupedDigits? 10 (decimal n) = some ds := by
    -- The equation for rows drops a mark in front, of which there is none.
    rw [← hlead]
    refine groupedDigits?_eq_some_iff.2 ⟨.of_forall₂ hrow, ?_⟩
    rintro rfl
    exact Nat.toDigits_ne_nil (List.forall₂_nil_right_iff.1 hrow)
  have hlength : ds.length ≤ digitLimit := by
    rw [← hrow.length_eq]
    exact fits_iff.1 (fits_natCast.2 h)
  rw [groupedDecimal?, hds, Option.bind_some, if_neg (by omega), ofDigits_eq, hvalue]

/-- No digit is the mark of a base. -/
theorem baseOfMark?_of_isDecimal (h : isDecimal c = true) : baseOfMark? c = none := by
  have hne : ∀ mark, isDecimal mark = false → c ≠ mark := by
    rintro mark hmark rfl
    rw [h] at hmark
    cases hmark
  have hx : c ≠ 'x' ∧ c ≠ 'X' := ⟨hne _ (by decide), hne _ (by decide)⟩
  have ho : c ≠ 'o' ∧ c ≠ 'O' := ⟨hne _ (by decide), hne _ (by decide)⟩
  have hb : c ≠ 'b' ∧ c ≠ 'B' := ⟨hne _ (by decide), hne _ (by decide)⟩
  simp [baseOfMark?, hx, ho, hb]

/-- A decimal text is read in base ten: its second character is no mark of another base, and a zero does
not stand in front of other digits. -/
theorem unsignedLiteral?_decimal (h : n < 10 ^ digitLimit) : unsignedLiteral? (decimal n) = some n := by
  have hplain : plainLiteral? (decimal n) = some n := by
    rw [plainLiteral?, groupedDecimal?_decimal h, Option.filter_some, if_pos]
    by_cases hn : n = 0
    · simp [hn]
    · simp [head?_decimal_ne_zero hn]
  unfold unsignedLiteral?
  split
  · -- A second digit is no mark of a base.
    rename_i mark rest hdecimal
    have hmem : mark ∈ decimal n := by simp [hdecimal]
    rw [baseOfMark?_of_isDecimal (isDecimal_of_mem_decimal hmem)]
    exact hplain
  · exact hplain

/-- A priority is read back from its decimal text. -/
theorem literal?_signed {p : Int} (h : p.natAbs < 10 ^ digitLimit) : literal? (signed p) = some p := by
  rw [literal?, signed]
  split_ifs with hneg
  · have hminus : plainDigit '-' = '-' := by decide
    rw [List.map_cons, hminus, map_plainDigit_decimal, withSign?_minus (unsignedLiteral?_decimal h)]
    exact congrArg some (by omega)
  · rw [map_plainDigit_decimal, withSign?_decimal (unsignedLiteral?_decimal h)]
    exact congrArg some (by omega)

/-- A limit is read back from its decimal text. -/
theorem integer?_decimal (h : n < 10 ^ digitLimit) : integer? (decimal n) = some (n : Int) := by
  have hpadding : ∀ c ∈ decimal n, ¬isPadding c = true := by
    intro c hc
    rw [isPadding, (isWord_decimal n).not_isBlank c hc]
    simp
  have hstart : (decimal n).dropWhile isPadding = decimal n :=
    List.dropWhile_eq_self_iff.2 fun hl => hpadding _ (List.getElem_mem hl)
  have hend : (decimal n).reverse.dropWhile isPadding = (decimal n).reverse :=
    List.dropWhile_eq_self_iff.2 fun hl => hpadding _ (List.mem_reverse.1 (List.getElem_mem hl))
  rw [integer?, hstart, hend, List.reverse_reverse, withSign?_decimal (groupedDecimal?_decimal h)]

end Numeral

/-! ### Names in any case -/

/-- Only the small letters of ASCII change. -/
theorem toUpper_eq_self {c : Char} (h : c.toNat < 'a'.toNat ∨ 'z'.toNat < c.toNat) : c.toUpper = c := by
  refine dif_neg ?_
  rintro ⟨hfirst, hlast⟩
  rw [UInt32.le_iff_toNat_le] at hfirst hlast
  exact h.elim (fun h => absurd hfirst (Nat.not_le.2 h)) fun h => absurd hlast (Nat.not_le.2 h)

theorem toUpper_of_isBlank {c : Char} (h : isBlank c = true) : c.toUpper = c := by
  -- The blanks lie below the small letters or above them, so none of them is one.
  have apart : ∀ r ∈ blankRanges, r.2 < 'a'.toNat ∨ 'z'.toNat < r.1 := by decide
  simp only [isBlank, List.any_eq_true, Bool.and_eq_true, decide_eq_true_eq, Prod.exists] at h
  obtain ⟨low, high, hr, hlow, hhigh⟩ := h
  apply toUpper_eq_self
  have := apart (low, high) hr
  simp only at this
  omega

/-- Where the capital letters are in ASCII, so are the letters. -/
theorem Text.upper_eq_map_toUpper {t : Text} (h : ∀ c ∈ t, c.toUpper.toNat < 0x80) :
    t.upper = t.map Char.toUpper := by
  induction t with
  | nil => rfl
  | cons c t ih =>
    rw [List.forall_mem_cons] at h
    have hc : c.toNat < 0x80 := by
      -- Beyond ASCII a character would stay as it is, and beyond ASCII.
      by_contra hlarge
      have hz : 'z'.toNat < 0x80 := by decide
      rw [toUpper_eq_self (.inr (by omega))] at h
      exact hlarge h.1
    rw [upper_cons, upperChar, if_pos hc, ih h.2, List.map_cons]
    rfl

theorem Text.comma_not_mem_of_allBlank {t : Text} (h : t.allBlank = true) : ',' ∉ t := by
  intro hc
  exact absurd (List.all_eq_true.1 h ',' hc) (by decide)

namespace Field

variable {f : Field} {name item : Text}

/-- An item that stands for a field: the name of the field, in any case and with blanks around it. -/
def IsItem (f : Field) (item : Text) : Prop :=
  ∃ lead name trail : Text, item = lead ++ name ++ trail ∧ lead.allBlank = true ∧
    trail.allBlank = true ∧ name.map Char.toUpper = f.name.map Char.toUpper

/-- The capital letters of a name are in ASCII, and none of its characters is a blank or a comma. -/
theorem plain_of_mem_map_toUpper (f : Field) :
    ∀ c ∈ f.name.map Char.toUpper, c.toNat < 0x80 ∧ isBlank c = false ∧ c ≠ ',' := by
  have hplain : (f.name.map Char.toUpper).all
      (fun c => c.toNat < 0x80 ∧ isBlank c = false ∧ c ≠ ',') = true := by
    cases f <;> decide
  intro c hc
  exact of_decide_eq_true (List.all_eq_true.1 hplain c hc)

/-- A name in any case has characters that are as plain as those of the field. -/
theorem plain_of_map_toUpper_eq (h : name.map Char.toUpper = f.name.map Char.toUpper) :
    ∀ c ∈ name, c.toUpper.toNat < 0x80 ∧ isBlank c = false ∧ c ≠ ',' := by
  intro c hc
  have hmem : c.toUpper ∈ f.name.map Char.toUpper := h ▸ List.mem_map_of_mem hc
  obtain ⟨hascii, hblank, hcomma⟩ := f.plain_of_mem_map_toUpper _ hmem
  refine ⟨hascii, ?_, ?_⟩
  · -- A blank stays one in capital letters.
    by_contra hc
    rw [toUpper_of_isBlank (by simpa using hc)] at hblank
    exact hc hblank
  · rintro rfl
    exact hcomma (by decide)

/-- A name in any case is a word. -/
theorem isWord_of_map_toUpper_eq (h : name.map Char.toUpper = f.name.map Char.toUpper) :
    name.IsWord := by
  refine ⟨?_, fun c hc => (plain_of_map_toUpper_eq h c hc).2.1⟩
  -- The name of a field is not empty, in capital letters as in others.
  rintro rfl
  cases f <;> exact absurd h (by decide)

/-- A name in any case has the key of the field. -/
theorem foldKey_eq_of_map_toUpper_eq (h : name.map Char.toUpper = f.name.map Char.toUpper) :
    foldKey name = f.key := by
  have hname := Text.upper_eq_map_toUpper fun c hc => (plain_of_map_toUpper_eq h c hc).1
  have hfield := Text.upper_eq_map_toUpper fun c hc => (plain_of_map_toUpper_eq (f := f) rfl c hc).1
  rw [key, foldKey, foldKey, hname, h, hfield]

theorem IsItem.not_allBlank (h : f.IsItem item) : item.allBlank ≠ true := by
  obtain ⟨lead, name, trail, rfl, -, -, hname⟩ := h
  obtain ⟨hne, hplain⟩ := isWord_of_map_toUpper_eq hname
  obtain ⟨c, hc⟩ := List.exists_mem_of_ne_nil name hne
  intro hblank
  have := List.all_eq_true.1 hblank c (by simp [hc])
  rw [hplain c hc] at this
  cases this

theorem IsItem.comma_not_mem (h : f.IsItem item) : ',' ∉ item := by
  obtain ⟨lead, name, trail, rfl, hlead, htrail, hname⟩ := h
  simp only [List.mem_append, not_or]
  exact ⟨⟨Text.comma_not_mem_of_allBlank hlead, fun hc => (plain_of_map_toUpper_eq hname _ hc).2.2 rfl⟩,
    Text.comma_not_mem_of_allBlank htrail⟩

end Field

namespace FieldSet

variable {f g : Field} {s : FieldSet} {t item : Text} {items : List Text}

/-- The key of a field stands for the field, and not for another one or for all of them. -/
theorem ofKey?_key (f : Field) : ofKey? f.key = some (single f) := by
  cases f <;> rfl

/-- An item that stands for a field is read as this field. -/
theorem ofName?_of_isItem (h : f.IsItem item) : ofName? item = .ok (single f) := by
  obtain ⟨lead, name, trail, rfl, hlead, htrail, hname⟩ := h
  have htrim := (Field.isWord_of_map_toUpper_eq hname).trimmed.trim_append_append hlead htrail
  rw [ofName?, htrim, Field.foldKey_eq_of_map_toUpper_eq hname, ofKey?_key]

/-- An item stands for one field. -/
theorem isItem_iff_of_isItem (h : g.IsItem item) : f.IsItem item ↔ f = g := by
  constructor
  · intro hf
    have hsingle := (ofName?_of_isItem hf).symm.trans (ofName?_of_isItem h)
    rw [← mem_single, ← Except.ok.inj hsingle, mem_single]
  · rintro rfl
    exact h

/-- Items that are blank or stand for fields are read as the set of these fields. -/
theorem exists_ofNames?_eq (h : ∀ item ∈ items, item.allBlank = true ∨ ∃ f : Field, f.IsItem item) :
    ∃ s, ofNames? items = .ok s ∧ ∀ f : Field, f ∈ s ↔ ∃ item ∈ items, f.IsItem item := by
  -- A blank item is passed over and any other is known, so no error can be reported.
  have hknown : items.find? (IsUnknown ·) = none := by
    simp only [List.find?_eq_none, decide_eq_true_iff]
    rintro item hitem ⟨hnotBlank, hnone⟩
    rcases h item hitem with hblank | ⟨g, hg⟩
    · rw [hblank] at hnotBlank
      cases hnotBlank
    · rw [ofName?_of_isItem hg] at hnone
      cases hnone
  refine ⟨named items, by rw [ofNames?_eq, hknown], fun f => ?_⟩
  simp only [mem_named, mem_namedSets]
  constructor
  · rintro ⟨s, ⟨item, hitem, hs⟩, hf⟩
    rcases h item hitem with hblank | ⟨g, hg⟩
    · have hnone := ofName?_of_allBlank hblank
      rw [hs] at hnone
      cases hnone
    · obtain rfl := Except.ok.inj ((ofName?_of_isItem hg).symm.trans hs)
      exact ⟨item, hitem, mem_single.1 hf ▸ hg⟩
  · rintro ⟨item, hitem, hf⟩
    exact ⟨single f, ⟨item, hitem, ofName?_of_isItem hf⟩, mem_single.2 rfl⟩

/-- A text that lists the members of a set: items between commas, of which each is blank or stands for a
member, and each member has one. -/
def IsListing (s : FieldSet) (t : Text) : Prop :=
  ∃ items : List Text, t = Text.join [','] items ∧
    (∀ item ∈ items, item.allBlank = true ∨ ∃ f ∈ s, f.IsItem item) ∧
    ∀ f ∈ s, ∃ item ∈ items, f.IsItem item

/-- **A written set is read back**, in whichever order and case its members are listed. -/
theorem ofNames?_splitOn_of_isListing (h : s.IsListing t) : ofNames? (t.splitOn ',') = .ok s := by
  obtain ⟨items, rfl, hitems, hmembers⟩ := h
  have hread : ∀ item ∈ items, item.allBlank = true ∨ ∃ f : Field, f.IsItem item := by
    intro item hitem
    exact (hitems item hitem).imp_right fun ⟨f, _, hf⟩ => ⟨f, hf⟩
  obtain ⟨s', hs', hmem⟩ := exists_ofNames?_eq hread
  -- Every listed field is a member, and every member is listed.
  have hset : s' = s := by
    refine ext_mem fun f => ?_
    rw [hmem]
    constructor
    · rintro ⟨item, hitem, hf⟩
      rcases hitems item hitem with hblank | ⟨g, hg, hgitem⟩
      · exact absurd hblank hf.not_allBlank
      · rwa [(isItem_iff_of_isItem hgitem).1 hf]
    · exact hmembers f
  -- A list of no items has the same text as one of an empty item, which makes no difference here.
  cases items with
  | nil => exact hs'.trans (congrArg Except.ok hset)
  | cons item items =>
    have hcomma : ∀ item' ∈ item :: items, ',' ∉ item' := by
      intro item' hitem
      rcases hread item' hitem with hblank | ⟨f, hf⟩
      · exact Text.comma_not_mem_of_allBlank hblank
      · exact hf.comma_not_mem
    rw [Text.join, List.splitOn_intercalate ',' hcomma (List.cons_ne_nil _ _), hs', hset]

end FieldSet

namespace ArchPriority

variable {a : ArchPriority} {as : List ArchPriority} {c : Char} {t entry x y : Text}

/-- A character between the entries of a list. -/
def IsSeparator (c : Char) : Prop := isBlank c = true ∨ c = ','

instance (c : Char) : Decidable (IsSeparator c) := inferInstanceAs (Decidable (_ ∨ _))

/-- An entry that can be written in a list and be told from what stands around it: it has a name, with no
separator and no colon in it, and its priority is not too long. -/
structure IsPlain (a : ArchPriority) : Prop where
  name_ne_nil : a.name ≠ []
  not_mem_name : ∀ c ∈ a.name, ¬IsSeparator c ∧ c ≠ ':'
  priority_lt : a.priority.natAbs < 10 ^ Numeral.digitLimit

/-- The texts of an entry. A priority of zero may be left out, with its colon. -/
inductive IsEntry : ArchPriority → Text → Prop
  | full (a : ArchPriority) : IsEntry a (a.name ++ ':' :: Numeral.signed a.priority)
  | bare (name : Text) : IsEntry ⟨name, 0⟩ name

/-- The texts of a list of entries: each entry but the last one has a separator behind it, and there may be
more separators anywhere between the entries and around them. -/
inductive IsListing : List ArchPriority → Text → Prop
  | nil : IsListing [] []
  | last {a : ArchPriority} {entry : Text} (ha : IsEntry a entry) : IsListing [a] entry
  | entry {a : ArchPriority} {entry : Text} {c : Char} {as : List ArchPriority} {t : Text}
    (ha : IsEntry a entry) (hc : IsSeparator c) (h : IsListing as t) :
    IsListing (a :: as) (entry ++ c :: t)
  | separator {c : Char} {as : List ArchPriority} {t : Text} (hc : IsSeparator c)
    (h : IsListing as t) : IsListing as (c :: t)

/-! ### Reading a list of architectures -/

/-- A separator divides a list into two lists, the second of which is read if the first one has been. -/
theorem ofList?_append_cons (hc : IsSeparator c) (x y : Text) :
    ofList? (x ++ c :: y) = (ofList? x).bind fun as => (ofList? y).map (as ++ ·) := by
  -- The commas become spaces before the text is divided, and then all separators are blanks.
  have hblank : isBlank (if c = ',' then ' ' else c) = true := by
    split_ifs with hcomma
    · rfl
    · exact hc.resolve_right hcomma
  have hwords : Text.words (Text.replace ',' ' ' (x ++ c :: y)) =
      Text.words (Text.replace ',' ' ' x) ++ Text.words (Text.replace ',' ' ' y) := by
    rw [Text.replace, List.map_append, List.map_cons, Text.words_append hblank]
    rfl
  rw [ofList?, hwords, List.mapM_append]
  rfl

/-- A separator in front of a list is not seen. -/
theorem ofList?_cons (hc : IsSeparator c) (t : Text) : ofList? (c :: t) = ofList? t := by
  have h : ofList? (c :: t) = (ofList? t).map ([] ++ ·) := ofList?_append_cons hc [] t
  rw [h]
  cases ofList? t <;> rfl

/-- A text without separators is the only entry of its list. -/
theorem ofList?_of_not_isSeparator (hne : entry ≠ []) (h : ∀ c ∈ entry, ¬IsSeparator c) :
    ofList? entry = (ofWord? entry).map fun a => [a] := by
  have hword : entry.IsWord := ⟨hne, fun c hc => by simpa using fun hblank => h c hc (.inl hblank)⟩
  have hreplace : entry.replace ',' ' ' = entry := by
    have hkeep : ∀ c ∈ entry, (if c = ',' then ' ' else c) = id c := fun c hc =>
      if_neg fun hcomma => h c hc (.inr hcomma)
    rw [Text.replace, List.map_congr_left hkeep, List.map_id]
  rw [ofList?, hreplace, Text.words_of_isWord hword, List.mapM_cons, List.mapM_nil]
  cases ofWord? entry <;> rfl

/-- The text of a priority is not divided. -/
theorem not_isSeparator_of_mem_signed {p : Int} (h : c ∈ Numeral.signed p) : ¬IsSeparator c := by
  have hdecimal : ∀ n, c ∈ Numeral.decimal n → ¬IsSeparator c := by
    rintro n hc (hblank | rfl)
    · rw [(Numeral.isWord_decimal n).not_isBlank c hc] at hblank
      cases hblank
    · exact absurd (Numeral.isDecimal_of_mem_decimal hc) (by decide)
  unfold Numeral.signed at h
  split_ifs at h
  · rcases List.mem_cons.1 h with rfl | h
    · exact fun hminus => hminus.elim (by decide) (by decide)
    · exact hdecimal _ h
  · exact hdecimal _ h

theorem IsEntry.not_isSeparator (h : IsEntry a entry) (ha : a.IsPlain) : ∀ c ∈ entry, ¬IsSeparator c := by
  intro c hc
  cases h with
  | full a =>
    rw [List.mem_append, List.mem_cons] at hc
    rcases hc with hc | rfl | hc
    · exact (ha.not_mem_name c hc).1
    · exact fun hcolon => hcolon.elim (by decide) (by decide)
    · exact not_isSeparator_of_mem_signed hc
  | bare name => exact (ha.not_mem_name c hc).1

theorem IsEntry.ne_nil (h : IsEntry a entry) (ha : a.IsPlain) : entry ≠ [] := by
  cases h with
  | full a => simp
  | bare name => exact ha.name_ne_nil

/-- An entry is read back from its text. -/
theorem IsEntry.ofWord?_eq (h : IsEntry a entry) (ha : a.IsPlain) : ofWord? entry = .ok a := by
  -- The name has no colon, so the first one is that of the priority.
  have hcolon : ':' ∉ a.name := fun hc => (ha.not_mem_name ':' hc).2 rfl
  cases h with
  | full a =>
    rw [ofWord?, split, Text.cut?_append_cons _ hcolon, Option.getD_some]
    simp only [ha.name_ne_nil, if_false, readPriority?, Numeral.signed_ne_nil,
      Numeral.literal?_signed ha.priority_lt]
  | bare name =>
    rw [ofWord?, split, Text.cut?_eq_none hcolon, Option.getD_none]
    simp only [ha.name_ne_nil, if_false, readPriority?, if_true]

/-- The text of one entry is read as a list of it. -/
theorem IsEntry.ofList?_eq (h : IsEntry a entry) (ha : a.IsPlain) : ofList? entry = .ok [a] := by
  rw [ofList?_of_not_isSeparator (h.ne_nil ha) (h.not_isSeparator ha), h.ofWord?_eq ha]
  rfl

/-- **A written list is read back**, whatever separators stand in it. -/
theorem ofList?_of_isListing (h : IsListing as t) (hplain : ∀ a ∈ as, a.IsPlain) :
    ofList? t = .ok as := by
  induction h with
  | nil => rfl
  | last ha => exact ha.ofList?_eq (hplain _ (List.mem_singleton_self _))
  | entry ha hc h ih =>
    rw [List.forall_mem_cons] at hplain
    -- The separator behind the entry divides the list, and the induction is on what follows it.
    rw [ofList?_append_cons hc, ha.ofList?_eq hplain.1, ih hplain.2]
    rfl
  | separator hc h ih => rw [ofList?_cons hc, ih hplain]

/-- The refusal of an entry: it has no name, or its priority is no number. -/
def IsRefusal (cause : Error) : Prop :=
  (∃ entry, cause = .unnamedArchitecture entry) ∨ ∃ name priority, cause = .badPriority name priority

/-- An entry is refused for its name or for its priority. -/
theorem isRefusal_of_ofWord? {cause : Error} (h : ofWord? entry = .error cause) : IsRefusal cause := by
  unfold ofWord? at h
  simp only at h
  split_ifs at h with hname
  · exact .inl ⟨entry, (Except.error.inj h).symm⟩
  · split at h
    · cases h
    · exact .inr ⟨_, _, (Except.error.inj h).symm⟩

theorem isRefusal_of_ofList? {cause : Error} (h : ofList? t = .error cause) : IsRefusal cause := by
  obtain ⟨word, -, hword⟩ := Except.exists_of_mapM_eq_error h
  exact isRefusal_of_ofWord? hword

/-- Where one of two lists is refused, so is the first with the second behind it. -/
theorem exists_ofList?_append_eq_error (hc : IsSeparator c)
    (h : (∃ cause, ofList? x = .error cause) ∨ ∃ cause, ofList? y = .error cause) :
    ∃ cause, ofList? (x ++ c :: y) = .error cause ∧ IsRefusal cause := by
  have herror : ∃ cause, ofList? (x ++ c :: y) = .error cause := by
    rw [ofList?_append_cons hc]
    cases hx : ofList? x with
    | error cause => exact ⟨cause, rfl⟩
    | ok as =>
      rw [hx] at h
      obtain ⟨cause, hcause⟩ | ⟨cause, hcause⟩ := h
      · cases hcause
      · exact ⟨cause, by rw [hcause]; rfl⟩
  obtain ⟨cause, hcause⟩ := herror
  exact ⟨cause, hcause, isRefusal_of_ofList? hcause⟩

end ArchPriority

/-! ### The configuration of an environment -/

namespace Config

variable {env : Environment} {as : List ArchPriority} {forced : FieldSet} {n : Nat} {t : Text}

/-- An environment that holds what is written for these values: a list of the architectures, a list of the
fields, which need not be there if there is no field, and the decimal text of the limit. -/
structure IsWritten (env : Environment) (as : List ArchPriority) (forced : FieldSet) (n : Nat) :
    Prop where
  architectures : ∃ t, env .architectures = some t ∧ ArchPriority.IsListing as t
  forced : forced.IsListing ((env .forcedFields).getD [])
  lineLimit : env .lineLimit = some (Numeral.decimal n)

theorem setting?_eq_some {s : Setting} (h : env s = some t) (hne : t ≠ []) :
    setting? env s = some t := by
  rw [setting?, h, Option.filter_some, if_pos (by simpa using hne)]

/-- A limit is read back from an environment that holds its text. -/
theorem readLimit_eq (h : env .lineLimit = some (Numeral.decimal n))
    (hlimit : n < 10 ^ Numeral.digitLimit) : readLimit env = .ok n := by
  rw [readLimit, setting?_eq_some h (Numeral.isWord_decimal n).ne_nil]
  simp only [Numeral.integer?_decimal hlimit]

/-- Architectures are read from an environment that lists some. Without any, an empty text would not
count as given. -/
theorem readArchitectures_eq (h : env .architectures = some t) (hread : ArchPriority.ofList? t = .ok as)
    (hne : as ≠ []) : readArchitectures env = .ok as := by
  have ht : t ≠ [] := by
    rintro rfl
    exact hne (Except.ok.inj hread).symm
  rw [readArchitectures, setting?_eq_some h ht]
  exact hread

/-- A setting that is not there is read like an empty text. -/
theorem readForced_eq (env : Environment) :
    readForced env = FieldSet.ofNames? (((env .forcedFields).getD []).splitOn ',') := by
  cases h : env .forcedFields with
  | none =>
    rw [readForced, setting?, h]
    rfl
  | some t =>
    by_cases ht : t = []
    · rw [readForced, setting?, h, ht]
      rfl
    · rw [readForced, setting?_eq_some h ht]
      rfl

/-- The three settings are put together if the limit is positive and every number in them can be
written. -/
theorem exists_ofEnvironment?_eq (hlimit : readLimit env = .ok n)
    (harch : readArchitectures env = .ok as) (hforced : readForced env = .ok forced) (hpos : 0 < n)
    (hn : Numeral.fits n = true) (has : ∀ a ∈ as, Numeral.fits a.priority = true) :
    ∃ c, ofEnvironment? env = .ok c ∧ c.architectures = as ∧ c.forced = forced ∧ c.lineLimit = n := by
  -- The limit is checked when the parts are put together, and the numbers after that.
  have hpos' : (0 : Int) < n := by omega
  let c : Config := ⟨as, forced, n, hpos⟩
  have hparts : ofParts? as forced n = .ok c := by
    rw [ofParts?, dif_pos hpos']
    rfl
  have hwritable : c.isWritable = true := by
    rw [isWritable, Bool.and_eq_true, List.all_eq_true]
    exact ⟨hn, has⟩
  refine ⟨c, ?_, rfl, rfl, rfl⟩
  rw [ofEnvironment?, hlimit, harch, hforced]
  simp only [bind, Except.bind, hparts, hwritable, if_true]
  rfl

/-- **What is written to an environment is read back.** A configuration with these architectures, in their
order, with these forced fields and this limit is loaded from every environment that holds their texts, if
there is an architecture, if names and numbers can be told from what stands around them and numbers are not
too long. And a list of architectures behind another one, with a space between them, is read after it; if one
of the two is refused, so are both together. -/
theorem ofEnvironment?_readsBack :
    (∀ (env : Environment) (as : List ArchPriority) (forced : FieldSet) (n : Nat),
      as ≠ [] → (∀ a ∈ as, a.IsPlain) → 0 < n → n < 10 ^ Numeral.digitLimit →
      IsWritten env as forced n →
      ∃ c, ofEnvironment? env = .ok c ∧ c.architectures = as ∧ c.forced = forced ∧
        c.lineLimit = n) ∧
    ∀ x y : Text,
      (∀ as bs, ArchPriority.ofList? x = .ok as → ArchPriority.ofList? y = .ok bs →
        ArchPriority.ofList? (x ++ ' ' :: y) = .ok (as ++ bs)) ∧
      ((∃ cause, ArchPriority.ofList? x = .error cause) ∨
          (∃ cause, ArchPriority.ofList? y = .error cause) →
        ∃ cause, ArchPriority.ofList? (x ++ ' ' :: y) = .error cause ∧
          ArchPriority.IsRefusal cause) := by
  have hspace : ArchPriority.IsSeparator ' ' := .inl rfl
  refine ⟨fun env as forced n hne hplain hpos hlimit hwritten => ?_, fun x y => ⟨?_, ?_⟩⟩
  · obtain ⟨⟨t, ht, hlisting⟩, hforced, hline⟩ := hwritten
    -- Each setting is read by itself, and none depends on another.
    refine exists_ofEnvironment?_eq (readLimit_eq hline hlimit)
      (readArchitectures_eq ht (ArchPriority.ofList?_of_isListing hlisting hplain) hne) ?_ hpos
      (Numeral.fits_natCast.2 hlimit) fun a ha => Numeral.fits_iff_lt.2 (hplain a ha).priority_lt
    rw [readForced_eq, FieldSet.ofNames?_splitOn_of_isListing hforced]
  · intro as bs hx hy
    rw [ArchPriority.ofList?_append_cons hspace, hx, hy]
    rfl
  · exact ArchPriority.exists_ofList?_append_eq_error hspace

/-- Separators of both kinds, a negative priority and one that is left out, names of fields in other cases,
and an item of nothing. -/
theorem ofEnvironment?_readsBack_mixed :
    let as : List ArchPriority := [⟨"amd64".toList, -10⟩, ⟨"all".toList, 0⟩]
    let forced : FieldSet := .single .md5sum ∪ .single .preDepends
    let env : Environment := fun s =>
      if s = .architectures then some ",amd64:-10, all\n".toList
      else if s = .forcedFields then some " MD5SUM,,pre-depends\t".toList
      else some "4096".toList
    as ≠ [] ∧ (∀ a ∈ as, a.IsPlain) ∧ 4096 < 10 ^ Numeral.digitLimit ∧ IsWritten env as forced 4096 ∧
      (∃ c, ofEnvironment? env = .ok c ∧ c.architectures = as ∧ c.forced = forced ∧
        c.lineLimit = 4096) ∧
      ArchPriority.ofList? ("amd64:-10".toList ++ ' ' :: "all".toList) = .ok as := by
  intro as forced env
  have hne : as ≠ [] := List.cons_ne_nil _ _
  have hplain : ∀ a ∈ as, a.IsPlain := by
    have hname : ∀ a ∈ as, a.name ≠ [] ∧
        a.name.all (fun c => ¬ArchPriority.IsSeparator c ∧ c ≠ ':') = true ∧
        (Numeral.decimal a.priority.natAbs).length ≤ Numeral.digitLimit := by decide
    intro a ha
    obtain ⟨hne, hchars, hlength⟩ := hname a ha
    exact ⟨hne, fun c hc => of_decide_eq_true (List.all_eq_true.1 hchars c hc),
      Numeral.fits_iff_lt.1 (Numeral.fits_iff.2 hlength)⟩
  have hlimit : 4096 < 10 ^ Numeral.digitLimit :=
    Numeral.fits_natCast.1 (Numeral.fits_iff.2 (by decide))
  have hlisting : ArchPriority.IsListing as ",amd64:-10, all\n".toList := by
    have hcomma : ArchPriority.IsSeparator ',' := .inr rfl
    have hspace : ArchPriority.IsSeparator ' ' := .inl rfl
    have hnewline : ArchPriority.IsSeparator '\n' := .inl rfl
    exact .separator hcomma (.entry (.full ⟨"amd64".toList, -10⟩) hcomma
      (.separator hspace (.entry (.bare "all".toList) hnewline .nil)))
  have hforced : forced.IsListing " MD5SUM,,pre-depends\t".toList := by
    have hmd5sum : Field.IsItem .md5sum " MD5SUM".toList :=
      ⟨[' '], "MD5SUM".toList, [], by decide, by decide, by decide, by decide⟩
    have hpreDepends : Field.IsItem .preDepends "pre-depends\t".toList :=
      ⟨[], "pre-depends".toList, ['\t'], by decide, by decide, by decide, by decide⟩
    refine ⟨[" MD5SUM".toList, [], "pre-depends\t".toList], by decide, ?_, ?_⟩
    · simp only [List.forall_mem_cons]
      exact ⟨.inr ⟨.md5sum, by decide, hmd5sum⟩, .inl rfl, .inr ⟨.preDepends, by decide, hpreDepends⟩,
        by simp⟩
    · intro f hf
      rcases FieldSet.mem_union.1 hf with hf | hf
      · exact ⟨_, by simp, FieldSet.mem_single.1 hf ▸ hmd5sum⟩
      · exact ⟨_, by simp, FieldSet.mem_single.1 hf ▸ hpreDepends⟩
  have hwritten : IsWritten env as forced 4096 := ⟨⟨_, rfl, hlisting⟩, hforced, by decide⟩
  obtain ⟨hread, happend⟩ := ofEnvironment?_readsBack
  refine ⟨hne, hplain, hlimit, hwritten, hread env as forced 4096 hne hplain (by decide) hlimit hwritten,
    (happend _ _).1 [⟨"amd64".toList, -10⟩] [⟨"all".toList, 0⟩] (by decide) (by decide)⟩

end Config

end ControlFile

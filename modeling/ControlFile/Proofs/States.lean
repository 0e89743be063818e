import ControlFile.Proofs.Values

/-!
# States and their texts

A status is a triple of words, and any three words are one: a want state or a stage without a known name
counts as the first of its kind, and a list of flags keeps the names that it knows
(`Status.ofText?_eq_ok_iff`). The three words that are written for a status are read back as the same status,
so writing what was read and reading it again changes nothing.

A flag is read from a list if some item of it names the flag (`FlagSet.mem_ofText_iff_exists_splitOn`). Hence
reading takes lists that are put one behind the other to unions (`FlagSet.ofText_append`), the order and the
number of the items are of no account (`FlagSet.ofText_congr`), and an item that names no flag can be left out
(`FlagSet.ofText_append_of_unnamed`). The word for the empty set is such an item.
-/

namespace ControlFile

namespace Flag

variable {f g : Flag} {t : Text}

/-- No two flags are spelled alike, in whatever case. -/
theorem eq_of_upper_word (h : f.word.upper = g.word.upper) : f = g := by
  have hword : ∀ f ∈ all, ∀ g ∈ all, f.word.upper = g.word.upper → f = g := by decide
  exact hword f (mem_all f) g (mem_all g) h

/-- A word names the flag that it spells, in any case. -/
theorem ofText?_eq_some_iff : ofText? t = some f ↔ f.word.upper = t.upper := by
  constructor
  · intro h
    simpa using List.find?_some h
  · intro h
    cases hg : ofText? t with
    | none => exact absurd h (by simpa using List.find?_eq_none.1 hg f (mem_all f))
    | some g =>
      have hgt : g.word.upper = t.upper := by simpa using List.find?_some hg
      -- The look-up finds some flag, and the spelling leaves only one.
      rw [eq_of_upper_word (hgt.trans h.symm)]

/-- A text that names no flag: a blank one, the word for the empty set, or any other that spells none. -/
theorem ofText?_eq_none (h : t = [] ∨ t = FlagSet.okWord ∨ ∀ f : Flag, f.word.upper ≠ t.upper) :
    ofText? t = none := by
  rcases h with rfl | rfl | h
  · decide
  · decide
  · rw [Option.eq_none_iff_forall_ne_some]
    intro f hf
    exact h f (ofText?_eq_some_iff.1 hf)

end Flag

namespace FlagSet

variable {x y token : Text} {f : Flag}

/-- A flag is read if one of the pieces between commas names it. Pieces that are empty make no
difference. -/
theorem mem_ofText_iff_exists_splitOn :
    f ∈ ofText x ↔ ∃ token ∈ x.splitOn ',', Flag.ofText? (Text.trim token) = some f := by
  rw [mem_ofText, Text.items]
  constructor
  · rintro ⟨item, hitem, hf⟩
    obtain ⟨token, htoken, rfl⟩ := List.mem_map.1 (List.mem_of_mem_filter hitem)
    exact ⟨token, htoken, hf⟩
  · rintro ⟨token, htoken, hf⟩
    -- The pieces are trimmed, and of the trimmed ones those that are not empty are items.
    refine ⟨Text.trim token, List.mem_filter.2 ⟨List.mem_map_of_mem htoken, ?_⟩, hf⟩
    -- What is left out of the items is empty, and that names no flag.
    rw [decide_eq_true_iff]
    intro hnil
    rw [hnil] at hf
    exact absurd hf (by rw [Flag.ofText?_eq_none (.inl rfl)]; simp)

/-- **Reading flags takes lists to unions.** -/
theorem ofText_append (x y : Text) : ofText (x ++ ',' :: y) = ofText x ∪ ofText y := by
  refine ext_mem fun f => ?_
  simp only [mem_union, mem_ofText, Text.items_append, List.mem_append, or_and_right, exists_or]

/-- Lists with the same items give the same flags. -/
theorem ofText_congr (h : ∀ token, token ∈ x.splitOn ',' ↔ token ∈ y.splitOn ',') :
    ofText x = ofText y := by
  refine ext_mem fun f => ?_
  simp only [mem_ofText_iff_exists_splitOn, h]

theorem not_mem_ofText_of_unnamed (hcomma : ',' ∉ token) (h : Flag.ofText? token.trim = none) :
    f ∉ ofText token := by
  rw [mem_ofText_iff_exists_splitOn, List.splitOn_eq_singleton hcomma]
  simp [h]

/-- An item that names no flag contributes nothing, before a list or after it. -/
theorem ofText_append_of_unnamed (hcomma : ',' ∉ token) (h : Flag.ofText? token.trim = none)
    (x : Text) : ofText (x ++ ',' :: token) = ofText x ∧ ofText (token ++ ',' :: x) = ofText x := by
  rw [ofText_append, ofText_append]
  constructor
  · refine ext_mem fun f => ?_
    simp only [mem_union, not_mem_ofText_of_unnamed hcomma h, or_false]
  · refine ext_mem fun f => ?_
    simp only [mem_union, not_mem_ofText_of_unnamed hcomma h, false_or]

end FlagSet

namespace Status

variable {value : Text} {s : Status}

/-- The words of a status are those behind the name of its field, if that is there. -/
theorem words_eq (value : Text) : words value = Text.words (Text.dropLead "Status:".toList value) :=
  Text.words_trim _

/-- **A status is any three words.** Each of them is given a meaning by itself. -/
theorem ofText?_eq_ok_iff :
    ofText? value = .ok s ↔ ∃ want flags stage, words value = [want, flags, stage] ∧
      s = ⟨.ofText want, .ofText flags, .ofText stage⟩ := by
  constructor
  · intro h
    unfold ofText? at h
    split at h
    · rename_i want flags stage hwords
      exact ⟨want, flags, stage, hwords, (Except.ok.inj h).symm⟩
    · cases h
  · rintro ⟨want, flags, stage, hwords, rfl⟩
    exact ofText?_eq_ok hwords

/-- Another number of words is malformed, and the number is told. -/
theorem ofText?_eq_error_iff {cause : Malformed} :
    ofText? value = .error cause ↔
      (words value).length ≠ 3 ∧ cause = .status (words value).length value := by
  unfold ofText?
  split
  · rename_i want flags stage hwords
    simp [hwords]
  · rename_i hwords
    have hlength : (words value).length ≠ 3 := by
      intro h
      -- Three words would have been read, whatever they are.
      obtain ⟨want, flags, stage, h⟩ := List.length_eq_three.1 h
      exact hwords want flags stage h
    simp [hlength, eq_comm]

theorem exists_ofText?_iff : (∃ s, ofText? value = .ok s) ↔ (words value).length = 3 := by
  simp only [ofText?_eq_ok_iff, List.length_eq_three]
  constructor
  · rintro ⟨s, want, flags, stage, hwords, -⟩
    exact ⟨want, flags, stage, hwords⟩
  · rintro ⟨want, flags, stage, hwords⟩
    exact ⟨_, want, flags, stage, hwords, rfl⟩

theorem text_eq_words (s : Status) :
    s.text = s.want.word ++ ' ' :: s.flags.text ++ ' ' :: s.stage.word := by
  simp [text]

/-- **A status is read from three words, and keeps its form.** The words are those after the name of the
field, if it is there; any three will do, and any other number is malformed. Written and read again, the
status is the same. Of its flags, two lists with a comma between them give the union of what each gives, so
that lists with the same items give the same flags; and blank items, the word for the empty set and names of
no flag contribute nothing. -/
theorem ofText?_isCodec (value : Text) :
    let ws := Text.words (Text.dropLead "Status:".toList value)
    ((∃ s, ofText? value = .ok s) ↔ ws.length = 3) ∧
    (∀ cause, ofText? value = .error cause ↔ ws.length ≠ 3 ∧ cause = .status ws.length value) ∧
    (∀ s, ofText? value = .ok s →
      ofText? (s.want.word ++ ' ' :: s.flags.text ++ ' ' :: s.stage.word) = .ok s) ∧
    (∀ x y, FlagSet.ofText (x ++ ',' :: y) = FlagSet.ofText x ∪ FlagSet.ofText y) ∧
    (∀ x y : Text, (∀ token, token ∈ x.splitOn ',' ↔ token ∈ y.splitOn ',') →
      FlagSet.ofText x = FlagSet.ofText y) ∧
    ∀ token : Text, ',' ∉ token →
      (token.trim = [] ∨ token.trim = "ok".toList ∨ ∀ f : Flag, f.word.upper ≠ token.trim.upper) →
      ∀ x, FlagSet.ofText (x ++ ',' :: token) = FlagSet.ofText x ∧
        FlagSet.ofText (token ++ ',' :: x) = FlagSet.ofText x := by
  intro ws
  have hws : words value = ws := words_eq value
  refine ⟨?_, fun cause => ?_, fun s _ => ?_, FlagSet.ofText_append, fun x y => FlagSet.ofText_congr,
    fun token hcomma hunnamed x => ?_⟩
  · rw [← hws]
    exact exists_ofText?_iff
  · rw [← hws]
    exact ofText?_eq_error_iff
  · rw [← text_eq_words]
    exact ofText?_text s
  · exact FlagSet.ofText_append_of_unnamed hcomma (Flag.ofText?_eq_none hunnamed) x

/-- Words in any case, one of them without a meaning; a flag that is repeated and put before another; and an
item that names no flag. -/
theorem ofText?_isCodec_unknown_words :
    let value : Text := "Status:\tbuy USER,,hold,x\u00a0Half_Installed ".toList
    let s : Status := ⟨.unknown, ⟨fun f => f = .hold ∨ f = .user⟩, .halfInstalled⟩
    ofText? value = .ok s ∧ ofText? "unknown hold,user half-installed".toList = .ok s ∧
      FlagSet.ofText "user,hold,user".toList = FlagSet.ofText "hold,user".toList ∧
      FlagSet.ofText ("hold".toList ++ ',' :: ['x']) = FlagSet.ofText "hold".toList := by
  intro value s
  obtain ⟨-, -, hform, -, hitems, hunnamed⟩ := ofText?_isCodec value
  have hread : ofText? value = .ok s := by
    have hwords : words value =
        ["buy".toList, "USER,,hold,x".toList, "Half_Installed".toList] := by decide
    have hflags : FlagSet.ofText "USER,,hold,x".toList = s.flags := by decide
    rw [ofText?_eq_ok hwords, hflags]
    rfl
  refine ⟨hread, hform s hread, hitems _ _ fun token => ?_, (hunnamed ['x'] ?_ ?_ _).1⟩
  · -- The two lists have the same pieces, one of them twice in the first.
    have hleft : "user,hold,user".toList.splitOn ',' =
        ["user".toList, "hold".toList, "user".toList] := by decide
    have hright : "hold,user".toList.splitOn ',' = ["hold".toList, "user".toList] := by decide
    rw [hleft, hright]
    simp only [List.mem_cons, List.not_mem_nil, or_false]
    exact ⟨fun h => h.elim .inr id, .inr⟩
  · decide
  · refine .inr (.inr fun f => ?_)
    cases f <;> decide

end Status

end ControlFile

import ControlFile.Command.Report
import ControlFile.Proofs.Trimming

/-!
# Fields by name

A name stands for a set of fields: that of one field, or the empty or the full one. Three lists of names say
what is read. The fields of the first one are asked for, all of them if the list is empty; those of the second
one are left out; and those of the third one are forced off (`readFields`).

**The result is the algebra of the sets that are named** (`readFields_isSetAlgebra`). The lists themselves are
of no account, neither their order nor how often or in which spelling a set is named; and since what is left
out or forced off is taken away last, no list of fields to read brings it back. A blank name stands for no set.
It does count as a name, so that a list of blanks asks for nothing, and not for everything as the empty list
does.

Everything follows from one equation for a list of names (`FieldSet.ofNames?_eq`): either one of them is
unknown, and the first of these is reported, or the list is the union of what it names.
-/

namespace ControlFile

namespace FieldSet

variable {names names' : List Text} {name : Text} {s : FieldSet} {f : Field}

/-! ### What names stand for -/

/-- The sets that the names stand for. -/
def namedSets (names : List Text) : List FieldSet := names.filterMap fun name => (ofName? name).toOption

/-- The fields of all sets that the names stand for. -/
def named (names : List Text) : FieldSet := ⟨fun f => (namedSets names).any (f ∈ ·)⟩

/-- A name that stands for no set and is not passed over either. -/
def IsUnknown (name : Text) : Prop := name.allBlank = false ∧ (ofName? name).toOption = none

instance : DecidablePred IsUnknown := fun name =>
  inferInstanceAs (Decidable (name.allBlank = false ∧ (ofName? name).toOption = none))

/-- A set is named if one of the names stands for it. -/
theorem mem_namedSets : s ∈ namedSets names ↔ ∃ name ∈ names, ofName? name = .ok s := by
  -- What a name stands for is kept as an option, which forgets the error and nothing else.
  have hname : ∀ name, (ofName? name).toOption = some s ↔ ofName? name = .ok s := by
    intro name
    cases ofName? name <;> simp [Except.toOption]
  simp only [namedSets, List.mem_filterMap, hname]

theorem namedSets_append : namedSets (names ++ names') = namedSets names ++ namedSets names' :=
  List.filterMap_append

/-- A field is named if it is in one of the sets that are named. -/
theorem mem_named : f ∈ named names ↔ ∃ s ∈ namedSets names, f ∈ s := by
  simp [named, Membership.mem]

/-- Two lists of names, one behind the other, name the fields of both. -/
theorem named_append : named (names ++ names') = named names ∪ named names' := by
  refine ext_mem fun f => ?_
  simp only [mem_union, mem_named, namedSets_append, List.mem_append, or_and_right, exists_or]

/-- A name that stands for no set adds no field. -/
theorem named_cons_of_eq_none (h : (ofName? name).toOption = none) : named (name :: names) = named names := by
  simp only [named, namedSets, List.filterMap_cons, h]

/-- A name that stands for a set adds its fields. -/
theorem named_cons_of_eq_ok (h : ofName? name = .ok s) : named (name :: names) = s ∪ named names := by
  refine ext_mem fun f => ?_
  have hsets : namedSets (name :: names) = s :: namedSets names := by
    simp only [namedSets, List.filterMap_cons, h, Except.toOption]
  rw [mem_named, hsets, mem_union, mem_named, List.exists_mem_cons_iff]

/-! ### Reading a list of names -/

/-- A name that is not known is reported by itself, as it was written. -/
theorem ofName?_eq_error (h : (ofName? name).toOption = none) : ofName? name = .error (.unknownField name) := by
  rw [ofName?] at h ⊢
  split at h
  · cases h
  · rfl

/-- A blank name has an empty key, which nothing has. -/
theorem ofName?_of_allBlank (h : name.allBlank = true) : (ofName? name).toOption = none := by
  -- The key is taken from the name after trimming, and that is empty.
  have htrim : name.trim = [] := by
    have := Text.trim_append_of_allBlank h []
    rwa [List.append_nil] at this
  rw [ofName?, htrim]
  rfl

/-- **What a list of names gives.** The first unknown name is reported; without one, the list is the union of
what it names. -/
theorem ofNames?_eq (names : List Text) :
    ofNames? names = match names.find? (IsUnknown ·) with
      | some name => .error (.unknownField name)
      | none => .ok (named names) := by
  induction names with
  | nil => rfl
  | cons name names ih =>
    rw [ofNames?, ih]
    by_cases hblank : name.allBlank = true
    · -- The name is passed over. It is not unknown, and it adds nothing to the union.
      have hknown : ¬IsUnknown name := fun h => by rw [h.1] at hblank; cases hblank
      rw [if_pos hblank, List.find?_cons_of_neg (by simpa using hknown),
        named_cons_of_eq_none (ofName?_of_allBlank hblank)]
    · rw [if_neg hblank]
      cases hset : ofName? name with
      | error cause =>
        -- Of all the names this one is reported, whatever comes after it.
        have hunknown : IsUnknown name := ⟨by simpa using hblank, by rw [hset]; rfl⟩
        rw [List.find?_cons_of_pos (by simpa using hunknown), ← hset, ofName?_eq_error hunknown.2]
        rfl
      | ok s =>
        have hknown : ¬IsUnknown name := fun h => by rw [IsUnknown, hset] at h; cases h.2
        -- The name is one more set in the union, and a later unknown name is reported all the same.
        rw [List.find?_cons_of_neg (by simpa using hknown), named_cons_of_eq_ok hset]
        cases names.find? (IsUnknown ·) <;> rfl

/-- Of two lists, one behind the other, the first error is reported, and without one the result is the
union. The sets do not depend on where the lists are divided. -/
theorem ofNames?_append (names names' : List Text) :
    ofNames? (names ++ names') = (do
      let s ← ofNames? names
      let t ← ofNames? names'
      pure (s ∪ t)) := by
  simp only [ofNames?_eq, List.find?_append, named_append]
  cases names.find? (IsUnknown ·) <;> cases names'.find? (IsUnknown ·) <;> rfl

end FieldSet

open FieldSet

/-! ### The three lists -/

variable {fields exclude forced : List Text} {name : Text} {s : FieldSet} {f : Field}

/-- The fields that are read when those of the first names are asked for, those of the second ones are left
out, and those of the third ones are forced off. -/
def readFields (fields exclude forced : List Text) : Except Error FieldSet := do
  let wanted ← selectFields fields exclude
  let off ← ofNames? forced
  pure (effective wanted off)

/-- The names to read are looked at before those to leave out, so that the first unknown name of both
lists together is the one that is reported. -/
theorem selectFields_eq (fields exclude : List Text) :
    selectFields fields exclude = match (fields ++ exclude).find? (IsUnknown ·) with
      | some name => .error (.badArgument (.unknownField name))
      | none => .ok ((if fields = [] then .full else named fields) \ named exclude) := by
  rw [selectFields, List.find?_append]
  -- An empty list asks for all fields and has no name that could be unknown.
  by_cases hfields : fields = []
  · subst hfields
    rw [if_pos rfl, if_pos rfl, ofNames?_eq exclude]
    cases hexclude : exclude.find? (IsUnknown ·) <;> rfl
  · rw [if_neg hfields, if_neg hfields, ofNames?_eq fields, ofNames?_eq exclude]
    cases fields.find? (IsUnknown ·) <;> cases exclude.find? (IsUnknown ·) <;> rfl

/-- The fields are found if no name of the three lists is unknown, and then they are the union of the
sets to read without those of the two other lists. -/
theorem readFields_eq_ok_iff :
    readFields fields exclude forced = .ok s ↔
      (∀ name ∈ fields ++ exclude ++ forced, ¬IsUnknown name) ∧
        s = effective ((if fields = [] then .full else named fields) \ named exclude) (named forced) := by
  -- The first two lists are looked through as one, and the third after them.
  have hfind : (∀ name ∈ fields ++ exclude ++ forced, ¬IsUnknown name) ↔
      (fields ++ exclude).find? (IsUnknown ·) = none ∧ forced.find? (IsUnknown ·) = none := by
    simp only [List.find?_eq_none, decide_eq_true_iff, List.mem_append, or_imp, forall_and]
  rw [hfind, readFields, selectFields_eq, ofNames?_eq]
  cases (fields ++ exclude).find? (IsUnknown ·) with
  | some name => simp [bind, Except.bind]
  | none =>
    cases forced.find? (IsUnknown ·) with
    | some name => simp [bind, Except.bind]
    | none => simp [bind, Except.bind, pure, Except.pure, eq_comm]

/-- **Which fields are read**, by the sets that are named: each of them is asked for, and no set takes
it away. -/
theorem mem_of_readFields_eq_ok (h : readFields fields exclude forced = .ok s) :
    f ∈ s ↔ (fields = [] ∨ ∃ t ∈ namedSets fields, f ∈ t) ∧
      ∀ t ∈ namedSets (exclude ++ forced), f ∉ t := by
  obtain ⟨-, rfl⟩ := readFields_eq_ok_iff.1 h
  -- The empty list is the one that asks for all fields; otherwise a set has to name the field.
  have hwanted : f ∈ (if fields = [] then .full else named fields : FieldSet) ↔
      fields = [] ∨ ∃ t ∈ namedSets fields, f ∈ t := by
    by_cases hfields : fields = [] <;> simp [hfields, mem_named]
  rw [mem_effective, mem_sdiff, hwanted, and_assoc]
  refine and_congr_right fun _ => ?_
  simp only [mem_named, namedSets_append, List.mem_append, or_imp, forall_and, not_exists, not_and]

/-- **Selecting fields is set algebra on names.** If every name of the three lists is blank or known, then what
is read are the fields in some set of the first list, or all fields if that list is empty, that are in no set
of the other two. So of the first list only its sets matter and whether it is empty, and of the other two only
their sets together; one list behind another one gives the union of both; and a field that is left out or
forced off is not read, whatever is asked for. The first name that is unknown among those to read and to leave
out makes the argument refused. -/
theorem readFields_isSetAlgebra :
    (∀ fields exclude forced : List Text, (∀ name ∈ fields ++ exclude ++ forced, ¬IsUnknown name) →
      ∃ s, readFields fields exclude forced = .ok s ∧ ∀ f, f ∈ s ↔
        (fields = [] ∨ ∃ t ∈ namedSets fields, f ∈ t) ∧ ∀ t ∈ namedSets (exclude ++ forced), f ∉ t) ∧
    (∀ fields exclude forced fields' exclude' forced' : List Text,
      (∀ name ∈ fields ++ exclude ++ forced, ¬IsUnknown name) →
      (∀ name ∈ fields' ++ exclude' ++ forced', ¬IsUnknown name) →
      (fields = [] ↔ fields' = []) →
      (∀ t, t ∈ namedSets fields ↔ t ∈ namedSets fields') →
      (∀ t, t ∈ namedSets (exclude ++ forced) ↔ t ∈ namedSets (exclude' ++ forced')) →
      readFields fields exclude forced = readFields fields' exclude' forced') ∧
    (∀ names names' : List Text, ofNames? (names ++ names') = (do
      let s ← ofNames? names
      let t ← ofNames? names'
      pure (s ∪ t))) ∧
    (∀ (fields exclude forced : List Text) (s t : FieldSet) (f : Field),
      readFields fields exclude forced = .ok s → t ∈ namedSets (exclude ++ forced) → f ∈ t → f ∉ s) ∧
    ∀ fields exclude : List Text, (∃ name ∈ fields ++ exclude, IsUnknown name) →
      ∃ name, (fields ++ exclude).find? (IsUnknown ·) = some name ∧
        selectFields fields exclude = .error (.badArgument (.unknownField name)) := by
  -- Without an unknown name every list gives a set, so there are fields to speak of.
  have hread : ∀ fields exclude forced : List Text,
      (∀ name ∈ fields ++ exclude ++ forced, ¬IsUnknown name) →
      ∃ s, readFields fields exclude forced = .ok s :=
    fun _ _ _ hknown => ⟨_, readFields_eq_ok_iff.2 ⟨hknown, rfl⟩⟩
  refine ⟨fun fields exclude forced hknown => ?_, ?_, ofNames?_append, ?_, fun fields exclude h => ?_⟩
  · obtain ⟨s, hs⟩ := hread fields exclude forced hknown
    exact ⟨s, hs, fun f => mem_of_readFields_eq_ok hs⟩
  · intro fields exclude forced fields' exclude' forced' hknown hknown' hempty hfields hothers
    obtain ⟨s, hs⟩ := hread fields exclude forced hknown
    obtain ⟨s', hs'⟩ := hread fields' exclude' forced' hknown'
    -- A set of fields is what its members are, and membership speaks of the named sets only.
    have hset : s = s' := ext_mem fun f => by
      simp only [mem_of_readFields_eq_ok hs, mem_of_readFields_eq_ok hs', hempty, hfields, hothers]
    rw [hs, hs', hset]
  · intro fields exclude forced s t f hs ht hft hfs
    exact ((mem_of_readFields_eq_ok hs).1 hfs).2 t ht hft
  · obtain ⟨name, hmem, hunknown⟩ := h
    -- There is an unknown name, and so there is a first one.
    have hfind : ((fields ++ exclude).find? (IsUnknown ·)).isSome = true :=
      List.find?_isSome.2 ⟨name, hmem, by simpa using hunknown⟩
    obtain ⟨first, hfirst⟩ := Option.isSome_iff_exists.1 hfind
    exact ⟨first, hfirst, by rw [selectFields_eq, hfirst]⟩

/-- Names in several spellings, one of them blank, and the name of the empty set among those to leave out; the
same sets named in another order; a list of one blank, which asks for nothing; and two unknown names. -/
theorem readFields_isSetAlgebra_spellings :
    let fields : List Text := [" Depends\t", "", "pre_depends"].map String.toList
    let exclude : List Text := ["none".toList]
    let forced : List Text := ["DEPENDS".toList]
    let fields' : List Text := ["Pre-Depends", "depends", "PRE_DEPENDS"].map String.toList
    let exclude' : List Text := ["Depends", " ", "None"].map String.toList
    readFields fields exclude forced = .ok (.single .preDepends) ∧
      readFields fields exclude forced = readFields fields' exclude' [] ∧
      (∃ s, readFields [[' ']] [] [] = .ok s ∧ ∀ f, f ∉ s) ∧
      (∀ s, readFields ["all".toList] exclude forced = .ok s → .depends ∉ s) ∧
      ∃ name, (fields ++ ["x".toList, "y".toList]).find? (IsUnknown ·) = some name ∧
        selectFields fields ["x".toList, "y".toList] = .error (.badArgument (.unknownField name)) := by
  intro fields exclude forced fields' exclude'
  obtain ⟨hread, hcongr, -, hout, hunknown⟩ := readFields_isSetAlgebra
  -- The spellings name the same sets, as often and in whatever order they do.
  have hsets : namedSets fields ⊆ namedSets fields' ∧ namedSets fields' ⊆ namedSets fields := by decide
  have hothers : namedSets (exclude ++ forced) ⊆ namedSets (exclude' ++ []) ∧
      namedSets (exclude' ++ []) ⊆ namedSets (exclude ++ forced) := by decide
  have hsame : readFields fields exclude forced = readFields fields' exclude' [] :=
    hcongr fields exclude forced fields' exclude' [] (by decide) (by decide) (by decide)
      (fun _ => ⟨fun h => hsets.1 h, fun h => hsets.2 h⟩)
      (fun _ => ⟨fun h => hothers.1 h, fun h => hothers.2 h⟩)
  refine ⟨readFields_eq_ok_iff.2 ⟨by decide, by decide⟩, hsame, ?_, ?_,
    hunknown _ _ ⟨"x".toList, by decide, by decide⟩⟩
  · obtain ⟨s, hs, hmem⟩ := hread [[' ']] [] [] (by decide)
    have hnone : namedSets [[' ']] = [] := by decide
    exact ⟨s, hs, fun f hf => by simpa [hnone] using (hmem f).1 hf⟩
  · intro s hs
    exact hout ["all".toList] exclude forced s (.single .depends) .depends hs (by decide) (by decide)

end ControlFile

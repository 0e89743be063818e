import ControlFile.Error
import ControlFile.Field.Basic
import ControlFile.Numeral.TwosComplement

/-!
# Sets of fields

A reader populates the fields of a `FieldSet` only. The set is given by its members, so that
selecting fields is the algebra of sets; two written forms stand beside it:

* a list of names, read by `FieldSet.ofNames?`, where the empty and the full set have names too and
  blank names are left out;
* a number with one bit for each field, `FieldSet.code`, read back by `FieldSet.ofCode`.

`effective` is the set that a reader really uses: what was asked for without what is forced off.
-/

namespace ControlFile

/-- A set of fields. -/
@[ext] structure FieldSet where
  /-- Whether the field is in the set. -/
  has : Field → Bool

namespace FieldSet

instance : Membership Field FieldSet := ⟨fun s f => s.has f = true⟩

instance (f : Field) (s : FieldSet) : Decidable (f ∈ s) := inferInstanceAs (Decidable (_ = true))

/-- The set of no field. -/
def empty : FieldSet := ⟨fun _ => false⟩

/-- The set of every field. -/
def full : FieldSet := ⟨fun _ => true⟩

/-- The set of one field. -/
def single (f : Field) : FieldSet := ⟨fun g => g = f⟩

instance : Union FieldSet := ⟨fun s t => ⟨fun f => s.has f || t.has f⟩⟩

instance : SDiff FieldSet := ⟨fun s t => ⟨fun f => s.has f && !t.has f⟩⟩

@[simp] theorem not_mem_empty (f : Field) : f ∉ empty := Bool.false_ne_true

@[simp] theorem mem_full (f : Field) : f ∈ full := rfl

@[simp] theorem mem_single {f g : Field} : g ∈ single f ↔ g = f := by
  simp [single, Membership.mem]

@[simp] theorem mem_union {s t : FieldSet} {f : Field} : f ∈ s ∪ t ↔ f ∈ s ∨ f ∈ t := by
  simp [Membership.mem, Union.union]

@[simp] theorem mem_sdiff {s t : FieldSet} {f : Field} : f ∈ s \ t ↔ f ∈ s ∧ f ∉ t := by
  simp [Membership.mem, SDiff.sdiff]

/-- Sets with the same members are equal. -/
theorem ext_mem {s t : FieldSet} (h : ∀ f, f ∈ s ↔ f ∈ t) : s = t :=
  FieldSet.ext (funext fun f => Bool.eq_iff_iff.2 (h f))

instance : DecidableEq FieldSet := fun s t =>
  decidable_of_iff (∀ f ∈ Field.all, s.has f = t.has f)
    ⟨fun h => FieldSet.ext (funext fun f => h f (Field.mem_all f)), fun h _ _ => h ▸ rfl⟩

/-- The members of a set, in the order of the fields. -/
def toList (s : FieldSet) : List Field := Field.all.filter (· ∈ s)

@[simp] theorem mem_toList {s : FieldSet} {f : Field} : f ∈ s.toList ↔ f ∈ s := by
  simp [toList, Field.mem_all]

/-! ### Selection by name -/

/-- The set with the given key: that of a field, or that of the empty or the full set. -/
def ofKey? (key : Text) : Option FieldSet :=
  match Field.all.find? (·.key = key) with
  | some f => some (single f)
  | none =>
    if key = "NONE".toList then some empty
    else if key = "ALL".toList then some full
    else none

/-- The set that a name selects. Blanks around the name do not matter. -/
def ofName? (name : Text) : Except Error FieldSet :=
  match ofKey? (foldKey name.trim) with
  | some s => .ok s
  | none => .error (.unknownField name)

/-- The fields that some of the names select. Blank names select nothing. -/
def ofNames? : List Text → Except Error FieldSet
  | [] => .ok empty
  | name :: names =>
    if name.allBlank then ofNames? names
    else do
      let s ← ofName? name
      let rest ← ofNames? names
      pure (s ∪ rest)

/-! ### Numbers -/

/-- The place of a field's bit. The lowest bit belongs to no field. -/
def bit (f : Field) : Nat := Field.all.idxOf f + 1

/-- The number with the bits of the members. -/
def code (s : FieldSet) : Nat := s.toList.foldr (fun f n => n ||| 1 <<< bit f) 0

/-- The set with the bits of a number. A negative number stands for its two's complement, and bits
that belong to no field say nothing. -/
def ofCode (n : Int) : FieldSet := ⟨fun f => Numeral.hasBit n (bit f)⟩

theorem mem_ofCode {n : Int} {f : Field} : f ∈ ofCode n ↔ Numeral.hasBit n (bit f) = true := Iff.rfl

/-- Minus one, of which every bit is set, stands for every field. -/
theorem ofCode_neg_one : ofCode (-1) = full :=
  ext_mem fun f => by simp [mem_ofCode, Numeral.hasBit_neg_one]

/-! ### What a reader populates -/

/-- The fields that are asked for and not forced off. -/
def effective (requested forced : FieldSet) : FieldSet := requested \ forced

@[simp] theorem mem_effective {requested forced : FieldSet} {f : Field} :
    f ∈ effective requested forced ↔ f ∈ requested ∧ f ∉ forced := mem_sdiff

end FieldSet

end ControlFile

import ControlFile.Log
import ControlFile.Numeral.TwosComplement
import ControlFile.Text.UpperCase

/-!
# State flags

A package carries a set of flags. The set is written as the names of its flags with commas between
them, or as `ok` if it is empty, and read from any list of names with commas: the order, repeated
names, blanks and empty items do not matter, and a name of no flag is noted in the log and left
out.

A flag is in `FlagSet.ofText t` when some item of `t` names it (`FlagSet.mem_ofText`), which makes
reading a map from lists to unions.
-/

namespace ControlFile

/-- A flag of a package's state. -/
inductive Flag where
  | reinstreq | hold | replace | noprune | prefer | obsolete | user
  deriving DecidableEq, Repr

namespace Flag

/-- Every flag, in the order of the bits. -/
def all : List Flag := [.reinstreq, .hold, .replace, .noprune, .prefer, .obsolete, .user]

theorem mem_all (f : Flag) : f ∈ all := by cases f <;> decide

/-- The place of a flag's bit. -/
def bit : Flag → Nat
  | .reinstreq => 0
  | .hold => 1
  | .replace => 2
  | .noprune => 3
  | .prefer => 4
  | .obsolete => 5
  | .user => 8

/-- The word that is written for a flag. -/
def word : Flag → Text
  | .reinstreq => "reinstreq".toList
  | .hold => "hold".toList
  | .replace => "replace".toList
  | .noprune => "noprune".toList
  | .prefer => "prefer".toList
  | .obsolete => "obsolete".toList
  | .user => "user".toList

/-- The flag that a word names, in any case. -/
def ofText? (t : Text) : Option Flag := all.find? (·.word.upper = t.upper)

@[simp] theorem ofText?_word (f : Flag) : ofText? f.word = some f := by cases f <;> decide

end Flag

/-- A set of flags. -/
@[ext] structure FlagSet where
  /-- Whether the flag is in the set. -/
  has : Flag → Bool

namespace FlagSet

instance : Membership Flag FlagSet := ⟨fun s f => s.has f = true⟩

instance (f : Flag) (s : FlagSet) : Decidable (f ∈ s) := inferInstanceAs (Decidable (_ = true))

instance : Union FlagSet := ⟨fun s t => ⟨fun f => s.has f || t.has f⟩⟩

@[simp] theorem mem_union {s t : FlagSet} {f : Flag} : f ∈ s ∪ t ↔ f ∈ s ∨ f ∈ t := by
  simp [Membership.mem, Union.union]

/-- Sets with the same members are equal. -/
theorem ext_mem {s t : FlagSet} (h : ∀ f, f ∈ s ↔ f ∈ t) : s = t :=
  FlagSet.ext (funext fun f => Bool.eq_iff_iff.2 (h f))

instance : DecidableEq FlagSet := fun s t =>
  decidable_of_iff (∀ f ∈ Flag.all, s.has f = t.has f)
    ⟨fun h => FlagSet.ext (funext fun f => h f (Flag.mem_all f)), fun h _ _ => h ▸ rfl⟩

/-- The members of a set, in the order of the flags. -/
def toList (s : FlagSet) : List Flag := Flag.all.filter (· ∈ s)

@[simp] theorem mem_toList {s : FlagSet} {f : Flag} : f ∈ s.toList ↔ f ∈ s := by
  simp [toList, Flag.mem_all]

/-! ### Numbers -/

/-- The number with the bits of the members. -/
def code (s : FlagSet) : Nat := s.toList.foldr (fun f n => n ||| 1 <<< f.bit) 0

/-- The set with the bits of a number. A negative number stands for its two's complement, and bits
that belong to no flag say nothing. -/
def ofCode (n : Int) : FlagSet := ⟨fun f => Numeral.hasBit n f.bit⟩

theorem mem_ofCode {n : Int} {f : Flag} : f ∈ ofCode n ↔ Numeral.hasBit n f.bit = true := Iff.rfl

/-! ### Reading and writing -/

/-- The word for the empty set. -/
def okWord : Text := "ok".toList

/-- The set that a list of words with commas names. -/
def ofText (t : Text) : FlagSet :=
  ⟨fun f => (t.items ',').any fun item => Flag.ofText? item = some f⟩

/-- What reading a list of words notes: each word that names neither a flag nor the empty set. -/
def remarks (t : Text) : List Event :=
  ((t.items ',').filter fun item =>
    item.upper ≠ okWord.upper && (Flag.ofText? item).isNone).map .unknownFlag

/-- The text that is written for a set. -/
def text (s : FlagSet) : Text :=
  if s.toList = [] then okWord else Text.join [','] (s.toList.map Flag.word)

/-- A flag is read when some item of the text names it. -/
theorem mem_ofText {t : Text} {f : Flag} :
    f ∈ ofText t ↔ ∃ item ∈ t.items ',', Flag.ofText? item = some f := by
  simp [ofText, Membership.mem]

end FlagSet

end ControlFile

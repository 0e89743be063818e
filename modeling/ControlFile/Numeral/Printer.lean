import ControlFile.Error

/-!
# Writing numbers

`Numeral.signed?` is the decimal text of an integer, refused where the text would be longer than a
conversion handles.
-/

namespace ControlFile.Numeral

/-- The decimal text of an integer, unless it is too long. -/
def signed? (n : Int) : Except Error Text :=
  if fits n then .ok (signed n) else .error .numberTooLong

theorem signed?_of_fits {n : Int} (h : fits n = true) : signed? n = .ok (signed n) := by
  simp [signed?, h]

/-- What is written of a number is its decimal text, and only the length of it is looked at. -/
theorem signed?_eq_ok_iff {n : Int} {t : Text} : signed? n = .ok t ↔ fits n = true ∧ t = signed n := by
  unfold signed?
  cases fits n <;> simp [eq_comm]

end ControlFile.Numeral

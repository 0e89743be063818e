/-!
# Integers as rows of bits

In two's complement an integer is a row of bits without end: from some place on every bit is the
sign, set for a negative integer. `Numeral.hasBit` is the bit at a place; for a natural number it is
the usual one (`Numeral.hasBit_natCast`).
-/

namespace ControlFile.Numeral

/-- Whether an integer has the bit at this place. -/
def hasBit (n : Int) (place : Nat) : Bool := n >>> place % 2 = 1

/-- The bits of a natural number are the usual ones. -/
theorem hasBit_natCast (n place : Nat) : hasBit n place = n.testBit place := by
  rw [hasBit, Nat.testBit_eq_decide_div_mod_eq, Int.shiftRight_eq_div_pow]
  norm_cast

/-- Of minus one every bit is set. -/
theorem hasBit_neg_one (place : Nat) : hasBit (-1) place = true := by
  have h : (-1 : Int) >>> place = Int.negSucc (0 >>> place) := rfl
  rw [hasBit, h, Nat.zero_shiftRight]
  rfl

end ControlFile.Numeral

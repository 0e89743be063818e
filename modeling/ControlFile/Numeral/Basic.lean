import ControlFile.Text.Digit

/-!
# Numerals

Numbers as they are written and read in control files and settings. A numeral is a row of digits,
most significant first; `Numeral.ofDigits` is the number it denotes, and `Numeral.decimal` and
`Numeral.hexadecimal` write one.

* Digits may come from any script, and letters continue them above nine (`Numeral.digitValue?`).
* Where a numeral admits group marks, a single `_` may stand between two digits
  (`Numeral.ungroup?`).
* A conversion between a number and its decimal text is refused beyond `Numeral.digitLimit`
  digits, because its cost grows with their square; `Numeral.fits` says which numbers are inside.
  Hexadecimal text has no such limit.
-/

namespace ControlFile.Numeral

/-- The most digits that a conversion from or to decimal text handles. -/
def digitLimit : Nat := 4300

/-! ### The value of a row of digits -/

/-- The number that a row of digits denotes, most significant first. -/
def ofDigits (base : Nat) (digits : List Nat) : Nat :=
  digits.foldl (fun n d => base * n + d) 0

@[simp] theorem ofDigits_nil (base : Nat) : ofDigits base [] = 0 := rfl

/-- One more digit at the end multiplies what stands before it by the base. -/
@[simp] theorem ofDigits_concat (base : Nat) (digits : List Nat) (d : Nat) :
    ofDigits base (digits ++ [d]) = base * ofDigits base digits + d := by
  simp [ofDigits]

/-- The value of an ASCII letter as a digit: ten for the first one, in either case. -/
def letterValue? (c : Char) : Option Nat :=
  if c.isLower then some (c.toNat - 'a'.toNat + 10)
  else if c.isUpper then some (c.toNat - 'A'.toNat + 10)
  else none

/-- The value of a digit in the given base: a decimal digit of any script or an ASCII letter. -/
def digitValue? (base : Nat) (c : Char) : Option Nat :=
  ((decimalValue? c).or (letterValue? c)).filter (· < base)

/-- A non-empty row of decimal digits. -/
def isDecimalText (t : Text) : Bool := !t.isEmpty && t.all isDecimal

/-- The number that a row of decimal digits denotes. -/
def ofDecimals (t : Text) : Nat := ofDigits 10 (t.filterMap decimalValue?)

/-- A row of digits without its group marks. Each mark has to stand alone between two digits. -/
def ungroup? (t : Text) : Option Text :=
  let groups := t.splitOn '_'
  if groups.all (!·.isEmpty) then some groups.flatten else none

/-- The values of a row of digits in the given base, which may hold group marks. -/
def groupedDigits? (base : Nat) (t : Text) : Option (List Nat) :=
  (ungroup? t).bind fun digits => digits.mapM (digitValue? base)

/-! ### Writing -/

/-- The decimal text of a natural number. -/
def decimal (n : Nat) : Text := Nat.toDigits 10 n

/-- The decimal text of an integer. -/
def signed (n : Int) : Text :=
  if n < 0 then '-' :: decimal n.natAbs else decimal n.natAbs

/-- The hexadecimal text of a natural number, in lower case, after its mark. -/
def hexadecimal (n : Nat) : Text := '0' :: 'x' :: Nat.toDigits 16 n

/-- A number of at most `digitLimit` decimal digits. -/
def fits (n : Int) : Bool := n.natAbs < Nat.pow 10 digitLimit

@[simp] theorem signed_natCast (n : Nat) : signed n = decimal n := by
  simp [signed]

end ControlFile.Numeral

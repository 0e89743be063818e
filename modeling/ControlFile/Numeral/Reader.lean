import ControlFile.Error

/-!
# Reading numbers

Three notations are read:

* `Numeral.readUnsigned`, the value of a numeric field: decimal digits of any script, or digits
  after the mark `0x`;
* `Numeral.literal?`, an architecture's priority: an optional sign, and a base given by the mark
  `0x`, `0o` or `0b`; without a mark the base is ten, and then a number other than zero has no
  leading zeros;
* `Numeral.integer?`, a setting: an optional sign and decimal digits with any number of leading
  zeros, between blanks.

The first is refused as malformed, except that decimal digits beyond the limit are an error of
their own; the other two are plainly refused, whatever the reason.
-/

namespace ControlFile.Numeral

/-- The number that a row of decimal digits denotes, if the row is not too long. -/
def readDecimal (t : Text) : Except Error Nat :=
  if digitLimit < t.length then .error (.tooManyDigits t.length) else .ok (ofDecimals t)

/-- The number after the mark of base sixteen. One group mark may follow the mark directly. -/
def hexAfterMark? (t : Text) : Option Nat :=
  (groupedDigits? 16 (Text.dropLead ['_'] t)).map (ofDigits 16)

/-- The number that a text with the mark of base sixteen denotes. -/
def hex? : Text → Option Nat
  | '0' :: 'x' :: t => hexAfterMark? t
  | '0' :: 'X' :: t => hexAfterMark? t
  | _ => none

/-- The value of a numeric field. Blanks around it are dropped. -/
def readUnsigned (value : Text) : Except Error Nat :=
  if isDecimalText value.trim then readDecimal value.trim
  else match hex? value.trim with
    | some n => .ok n
    | none => .error (.malformed (.number value))

/-! ### Literals -/

/-- The digit of ASCII with the value of a decimal digit; other characters stay. -/
def plainDigit (c : Char) : Char := ((decimalValue? c).map Nat.digitChar).getD c

/-- The base that a mark after a zero announces. -/
def baseOfMark? (c : Char) : Option Nat :=
  if c = 'x' || c = 'X' then some 16
  else if c = 'o' || c = 'O' then some 8
  else if c = 'b' || c = 'B' then some 2
  else none

/-- The number of a row of decimal digits with group marks, if the row is not too long. -/
def groupedDecimal? (t : Text) : Option Nat :=
  (groupedDigits? 10 t).bind fun digits =>
    if digitLimit < digits.length then none else some (ofDigits 10 digits)

/-- The number of an unmarked literal: if its first digit is a zero, so is the number. -/
def plainLiteral? (t : Text) : Option Nat :=
  (groupedDecimal? t).filter fun n => n = 0 || t.head? != some '0'

/-- The number of a literal without a sign. -/
def unsignedLiteral? (t : Text) : Option Nat :=
  match t with
  | '0' :: mark :: rest =>
    match baseOfMark? mark with
    -- One group mark may stand between the mark of the base and the digits.
    | some base => (groupedDigits? base (Text.dropLead ['_'] rest)).map (ofDigits base)
    | none => plainLiteral? t
  | _ => plainLiteral? t

/-- The integer that `read` gives after an optional sign. -/
def withSign? (read : Text → Option Nat) : Text → Option Int
  | '-' :: t => (read t).map fun n => -(n : Int)
  | '+' :: t => (read t).map fun n => (n : Int)
  | t => (read t).map fun n => (n : Int)

/-- The integer that a literal denotes. -/
def literal? (t : Text) : Option Int := withSign? unsignedLiteral? (t.map plainDigit)

/-! ### Settings -/

/-- A character that may surround an integer: a blank one that is no separator of records. -/
def isPadding (c : Char) : Bool := isBlank c && !(0x1C ≤ c.toNat && c.toNat ≤ 0x1F)

/-- The integer that a setting denotes. -/
def integer? (t : Text) : Option Int :=
  withSign? groupedDecimal?
    (((t.dropWhile isPadding).reverse.dropWhile isPadding).reverse)

end ControlFile.Numeral

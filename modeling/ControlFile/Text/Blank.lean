/-!
# Blank characters

The characters that separate words, surround values and make up an empty line: the control
characters of ASCII that move the cursor or separate records, the space, and the space and line
separators of Unicode. The zero-width characters and the byte order mark are not among them.

* `isBlank` is membership in `blankRanges`;
* every character that core calls whitespace is blank (`isBlank_of_isWhitespace`), but not the
  other way round.
-/

namespace ControlFile

/-- The blank characters as inclusive ranges of code points, in increasing order. -/
def blankRanges : List (Nat × Nat) :=
  [(0x09, 0x0D), (0x1C, 0x20), (0x85, 0x85), (0xA0, 0xA0), (0x1680, 0x1680), (0x2000, 0x200A),
    (0x2028, 0x2029), (0x202F, 0x202F), (0x205F, 0x205F), (0x3000, 0x3000)]

/-- A character of `blankRanges`. -/
def isBlank (c : Char) : Bool :=
  blankRanges.any fun (low, high) => low ≤ c.toNat && c.toNat ≤ high

@[simp] theorem isBlank_space : isBlank ' ' = true := rfl

@[simp] theorem isBlank_newline : isBlank '\n' = true := rfl

@[simp] theorem isBlank_comma : isBlank ',' = false := rfl

@[simp] theorem isBlank_colon : isBlank ':' = false := rfl

/-- Every whitespace character of ASCII is blank. -/
theorem isBlank_of_isWhitespace {c : Char} (h : c.isWhitespace = true) : isBlank c = true := by
  simp only [Char.isWhitespace, Bool.or_eq_true, decide_eq_true_eq] at h
  rcases h with ((h | h) | h) | h <;> subst h <;> rfl

end ControlFile

import ControlFile.Text.Basic

/-!
# Text from octets

Files hold text in UTF-8. Octets that are not part of a well-formed character are dropped, so that
every run of octets has a text: of a character that breaks off, its octets up to the break are
dropped, and reading goes on with the octet that broke it. A byte order mark is a character like any
other.

`decode` reads the text. Files of other systems end their lines with a carriage return, alone or
before the newline; `unifyNewlines` makes each of these ends a newline.
-/

namespace ControlFile.Octets

/-- What the first octet of a character of several octets announces: the range of the second octet,
the number of the octets after that, and the first octet's share of the code point. -/
structure Lead where
  low : UInt8 := 0x80
  high : UInt8 := 0xBF
  more : Nat
  share : Nat

/-- What an octet announces as the first one of a character of several octets. The ranges leave out
characters written with more octets than needed, surrogates, and code points beyond the last. -/
def lead? (b : UInt8) : Option Lead :=
  if b < 0xC2 then none
  else if b < 0xE0 then some { more := 0, share := b.toNat - 0xC0 }
  else if b = 0xE0 then some { low := 0xA0, more := 1, share := 0 }
  else if b = 0xED then some { high := 0x9F, more := 1, share := 0xD }
  else if b < 0xF0 then some { more := 1, share := b.toNat - 0xE0 }
  else if b = 0xF0 then some { low := 0x90, more := 2, share := 0 }
  else if b < 0xF4 then some { more := 2, share := b.toNat - 0xF0 }
  else if b = 0xF4 then some { high := 0x8F, more := 2, share := 4 }
  else none

/-- The code point with `share` so far and `more` octets to come, if they come, and the octets after
it. -/
def continue? : (more : Nat) → (share : Nat) → List UInt8 → Option Char × List UInt8
  | 0, share, rest => (some (Char.ofNat share), rest)
  | _ + 1, _, [] => (none, [])
  | more + 1, share, b :: rest =>
    if 0x80 ≤ b && b ≤ 0xBF then continue? more (share * 64 + (b.toNat - 0x80)) rest
    else (none, b :: rest)

/-- The character that starts with the octet `b`, if there is one, and the octets after it or after
the part of a character that breaks off. -/
def character? (b : UInt8) (rest : List UInt8) : Option Char × List UInt8 :=
  if b < 0x80 then (some (Char.ofNat b.toNat), rest)
  else match lead? b, rest with
    | some lead, c :: more =>
      if lead.low ≤ c && c ≤ lead.high then
        continue? lead.more (lead.share * 64 + (c.toNat - 0x80)) more
      else (none, rest)
    | _, _ => (none, rest)

theorem length_continue?_le (more share : Nat) (rest : List UInt8) :
    (continue? more share rest).2.length ≤ rest.length := by
  fun_induction continue? more share rest with
  | case1 => exact Nat.le_refl _
  | case2 => exact Nat.le_refl _
  | case3 share more b rest h ih => exact Nat.le_succ_of_le ih
  | case4 => exact Nat.le_refl _

theorem length_character?_le (b : UInt8) (rest : List UInt8) :
    (character? b rest).2.length ≤ rest.length := by
  unfold character?
  split
  · exact Nat.le_refl _
  · split
    · split
      · exact Nat.le_succ_of_le (length_continue?_le _ _ _)
      · exact Nat.le_refl _
    · exact Nat.le_refl _

/-- The text of octets after the characters of `done`, which are the latest first. -/
def decodeFrom (octets : List UInt8) (done : Text) : Text :=
  match octets with
  | [] => done.reverse
  | b :: rest =>
    match _h : character? b rest with
    | (some c, rest') => decodeFrom rest' (c :: done)
    | (none, rest') => decodeFrom rest' done
termination_by octets.length
decreasing_by
  all_goals
    have := length_character?_le b rest
    rw [_h] at this
    simp only at this
    simp only [List.length_cons]
    omega

/-- The text of octets. -/
def decode (octets : List UInt8) : Text := decodeFrom octets []

/-- The text with the line ends of `t` unified, after the characters of `done`, which are the latest
first. -/
def unifyFrom : (t : Text) → (done : Text) → Text
  | [], done => done.reverse
  | '\r' :: '\n' :: t, done => unifyFrom t ('\n' :: done)
  | c :: t, done => unifyFrom t ((if c = '\r' then '\n' else c) :: done)

/-- The text with a newline for each line end. -/
def unifyNewlines (t : Text) : Text := unifyFrom t []

end ControlFile.Octets

/-!
# Bits

Octets read as a row of bits, the lowest bit of each octet first. `Bits.remaining` is the number of
bits still to come; each reader returns the bits after what it has read together with the fact that
there are fewer of them, which is why the decoders built on them end. `Bits.position` is the number
of bits before them; `Bits.octetsRead` rounds it up to full octets.
-/

namespace ControlFile

/-- A row of bits: octets, of which the first has lost some of its bits. -/
structure Bits where
  octets : List UInt8
  /-- The number of bits of the first octet that have been read. -/
  place : Fin 8
  /-- The number of octets before these. -/
  passed : Nat

namespace Bits

/-- All bits of octets, before which `passed` others have been read. -/
def ofOctets (octets : List UInt8) (passed : Nat) : Bits := ⟨octets, 0, passed⟩

/-- The number of bits still to come. -/
def remaining (b : Bits) : Nat := 8 * b.octets.length - b.place.val

@[simp] theorem remaining_ofOctets (octets : List UInt8) (passed : Nat) :
    (ofOctets octets passed).remaining = 8 * octets.length := rfl

/-- The number of bits before these. -/
def position (b : Bits) : Nat := 8 * b.passed + b.place.val

/-- The number of octets that have been read, in part or in full. -/
def octetsRead (b : Bits) : Nat := if b.place.val = 0 then b.passed else b.passed + 1

/-- The bits after those of `b`. -/
abbrev After (b : Bits) := { r : Bits // r.remaining < b.remaining }

/-- The bits of `b` or those after them. -/
abbrev From (b : Bits) := { r : Bits // r.remaining ≤ b.remaining }

/-- The next bit. -/
def next? (b : Bits) : Option (Nat × After b) :=
  match _hb : b with
  | ⟨[], _, _⟩ => none
  | ⟨octet :: rest, place, passed⟩ =>
    let bit := octet.toNat >>> place.val % 2
    if h : place.val = 7 then
      some (bit, ⟨ofOctets rest (passed + 1), by
        rw [remaining_ofOctets]
        simp only [remaining, List.length_cons]
        omega⟩)
    else
      some (bit, ⟨⟨octet :: rest, ⟨place.val + 1, by omega⟩, passed⟩, by
        simp only [remaining, List.length_cons]
        omega⟩)

/-- The number of the next `n` bits, of which the first is the lowest. -/
def take? (b : Bits) : (n : Nat) → Option (Nat × From b)
  | 0 => some (0, ⟨b, Nat.le_refl _⟩)
  | n + 1 => do
    let (bit, ⟨rest, h⟩) ← b.next?
    let (high, ⟨rest', h'⟩) ← take? rest n
    pure (bit + 2 * high, ⟨rest', Nat.le_trans h' (Nat.le_of_lt h)⟩)

/-- The bits from the next full octet on. -/
def align (b : Bits) : From b :=
  if h : b.place.val = 0 then ⟨b, Nat.le_refl _⟩
  else ⟨ofOctets (b.octets.drop 1) (b.passed + 1), by
    rw [remaining_ofOctets]
    simp only [remaining, List.length_drop]
    omega⟩

/-- The octets from the next full octet on. -/
def alignedOctets (b : Bits) : List UInt8 := b.align.val.octets

theorem length_alignedOctets_le (b : Bits) : 8 * b.alignedOctets.length ≤ b.remaining := by
  unfold alignedOctets align
  split
  · simp only [remaining]
    omega
  · simp only [remaining, ofOctets, List.length_drop]
    omega

end Bits

end ControlFile

import ControlFile.Octets.Checksum
import ControlFile.Octets.Deflate

/-!
# Compressed files

A compressed file is a row of members, each with a header, compressed data, and a trailer with the
checksum and the length of the octets. Zeros after a member are passed over, and a file of no
members holds no octets. `Gzip.decode` gives the octets of all members, and the damage that was met,
if any was.

The octets before a damage are given, except that a block which breaks the rules takes a part of them
with it (`Delivery.before`).
-/

namespace ControlFile.Gzip

/-! ### Headers -/

/-- A part of a header: what it takes from the front of the octets, which may be too few. -/
abbrev Part := List UInt8 → Option (List UInt8)

/-- A part that never gives more octets than it got. -/
def Part.Consumes (part : Part) : Prop :=
  ∀ octets rest, part octets = some rest → rest.length ≤ octets.length

/-- The part of the next `n` octets. -/
def Part.fixed (n : Nat) : Part := fun octets =>
  if octets.length < n then none else some (octets.drop n)

/-- The part that starts with its own length. -/
def Part.counted : Part
  | low :: high :: rest => Part.fixed (Deflate.word low high) rest
  | _ => none

/-- The part that ends with a zero, or with the file. -/
def Part.text : Part := fun octets => some ((octets.dropWhile (· ≠ 0)).drop 1)

/-- The part if it is there. -/
def Part.when (present : Bool) (part : Part) : Part := fun octets =>
  if present then part octets else some octets

/-- One part after another. -/
def Part.andThen (part next : Part) : Part := fun octets => (part octets).bind next

/-- What the flags of a header announce: extra data, a name, a comment, and a checksum. None of
these is looked at. -/
def Part.announced (flags : UInt8) : Part :=
  Part.andThen (.when (flags &&& 4 ≠ 0) .counted) <|
    Part.andThen (.when (flags &&& 8 ≠ 0) .text) <|
      Part.andThen (.when (flags &&& 16 ≠ 0) .text) (.when (flags &&& 2 ≠ 0) (.fixed 2))

namespace Part

theorem consumes_fixed (n : Nat) : Consumes (fixed n) := by
  intro octets rest h
  unfold fixed at h
  split at h
  · simp at h
  · rw [← Option.some.inj h]
    simp

theorem consumes_counted : Consumes counted := by
  intro octets rest h
  unfold counted at h
  split at h
  · exact Nat.le_succ_of_le (Nat.le_succ_of_le (consumes_fixed _ _ _ h))
  · simp at h

theorem consumes_text : Consumes text := by
  intro octets rest h
  have := (List.dropWhile_suffix (fun (o : UInt8) => decide (o ≠ 0)) (l := octets)).length_le
  rw [← Option.some.inj h, List.length_drop]
  omega

theorem Consumes.when {part : Part} (h : part.Consumes) (present : Bool) :
    (Part.when present part).Consumes := by
  intro octets rest hrest
  unfold Part.when at hrest
  split at hrest
  · exact h _ _ hrest
  · exact Option.some.inj hrest ▸ Nat.le_refl _

theorem Consumes.andThen {part next : Part} (h : part.Consumes) (hnext : next.Consumes) :
    (part.andThen next).Consumes := by
  intro octets rest hrest
  obtain ⟨middle, hmiddle, hrest⟩ := Option.bind_eq_some_iff.1 hrest
  exact Nat.le_trans (hnext _ _ hrest) (h _ _ hmiddle)

theorem consumes_announced (flags : UInt8) : (announced flags).Consumes :=
  (consumes_counted.when _).andThen <| (consumes_text.when _).andThen <|
    (consumes_text.when _).andThen ((consumes_fixed 2).when _)

end Part

/-- The octets after the header of a member. -/
def afterHeader? (octets : List UInt8) :
    Except Damage { rest : List UInt8 // rest.length < octets.length } :=
  match _h : octets with
  | 0x1F :: 0x8B :: method :: flags :: _ :: _ :: _ :: _ :: _ :: _ :: rest =>
    if method ≠ 8 then .error .unknownMethod
    else match hrest : Part.announced flags rest with
      | none => .error .endsEarly
      | some data =>
        .ok ⟨data, by
          have := Part.consumes_announced flags _ _ hrest
          simp only [List.length_cons]
          omega⟩
  | 0x1F :: 0x8B :: _ => .error .endsEarly
  | other => .error (.badMagic (other.take 2))

/-! ### Trailers -/

/-- The four octets of a number, the lowest one first. -/
def word32 (a b c d : UInt8) : Nat := Deflate.word a b + 65536 * Deflate.word c d

/-- The octets after the trailer of a member with these octets, and after the zeros that follow. -/
def afterTrailer? (output : Array UInt8) (octets : List UInt8) :
    Except Damage { rest : List UInt8 // rest.length ≤ octets.length } :=
  match octets with
  | c0 :: c1 :: c2 :: c3 :: n0 :: n1 :: n2 :: n3 :: rest =>
    let stored := word32 c0 c1 c2 c3
    let computed := (Checksum.ofOctets output).toNat
    if stored ≠ computed then .error (.badChecksum stored computed)
    else if word32 n0 n1 n2 n3 ≠ output.size % 0x100000000 then .error .badLength
    else
      .ok ⟨rest.dropWhile (· = 0), by
        have := (List.dropWhile_suffix (fun (o : UInt8) => decide (o = 0)) (l := rest)).length_le
        simp only [List.length_cons]
        omega⟩
  | _ => .error .endsEarly

/-! ### Members -/

/-- The octets of the members, after the octets in `done`, and the damage, if there is one. -/
def decodeFrom (octets : List UInt8) (done : Array UInt8) : Array UInt8 × Option Damage :=
  if octets = [] then (done, none)
  else match afterHeader? octets with
    | .error damage => (done, some damage)
    | .ok ⟨data, _hdata⟩ => match Deflate.inflate data with
      | { delivery, rest := .error fault } => (done ++ delivery.before fault, some fault.damage)
      | { delivery, rest := .ok ⟨bits, _hbits⟩ } =>
        match afterTrailer? delivery.octets bits.alignedOctets with
        -- The octets of a member are given out before its trailer is looked at.
        | .error damage => (done ++ delivery.octets, some damage)
        | .ok ⟨rest, _hrest⟩ => decodeFrom rest (done ++ delivery.octets)
termination_by octets.length
decreasing_by
  have := bits.length_alignedOctets_le
  omega

/-- The octets of a compressed file, and the damage in it, if there is any. -/
def decode (octets : List UInt8) : List UInt8 × Option Damage :=
  let (output, damage?) := decodeFrom octets #[]
  (output.toList, damage?)

end ControlFile.Gzip

import ControlFile.Octets.Delivery
import ControlFile.Octets.PrefixCode

/-!
# Compressed data

Compressed data is a row of blocks. A block holds octets as they are, or symbols in two prefix
codes, which are fixed or stand at the start of the block. A symbol is an octet, the end of the
block, or the length of a copy of earlier octets, after which the distance of that copy follows.

`Deflate.inflate` delivers the octets, and then gives the bits after the last block or the fault that
was met. Everything in a block reads at least one bit, which is why it ends.
-/

namespace ControlFile.Deflate

/-- The octets obtained so far, and the bits or the fault after them. -/
structure Inflated (bound : Nat) where
  delivery : Delivery
  rest : Except Fault { r : Bits // r.remaining < bound }

/-! ### Octets as they are -/

/-- The octets after `count` ones, which are delivered and stand after `passed` others. -/
def copyOctets :
    (count : Nat) → List UInt8 → (passed : Nat) → Delivery → Delivery × Option (List UInt8)
  | 0, rest, _, d => (d, some rest)
  | _ + 1, [], _, d => (d, none)
  | count + 1, octet :: rest, passed, d =>
    copyOctets count rest (passed + 1) ((d.readTo (8 * (passed + 1))).push passed octet)

theorem length_copyOctets_le {count passed : Nat} {octets rest : List UInt8} {d : Delivery}
    (h : (copyOctets count octets passed d).2 = some rest) : rest.length ≤ octets.length := by
  fun_induction copyOctets count octets passed d with
  | case1 => simp_all
  | case2 => simp at h
  | case3 count octet rest' passed d ih => exact Nat.le_succ_of_le (ih h)

/-- The two octets of a number, the lower one first. -/
def word (low high : UInt8) : Nat := low.toNat + 256 * high.toNat

/-- A block of octets as they are: their number, its complement, and the octets. -/
def storedBlock {bound : Nat} (b : Bits) (hb : b.remaining < bound) (d : Delivery) :
    Inflated bound :=
  match _h : b.alignedOctets with
  | n0 :: n1 :: c0 :: c1 :: octets =>
    let passed := b.octetsRead + 4
    if word n0 n1 + word c0 c1 ≠ 0xFFFF then
      { delivery := d, rest := .error (.broken "invalid stored block lengths" (8 * passed)) }
    else match _hcopy : copyOctets (word n0 n1) octets passed (d.readTo (8 * passed)) with
      | (d, none) => { delivery := d, rest := .error .endsEarly }
      | (d, some rest) =>
        { delivery := d
          rest := .ok ⟨.ofOctets rest (passed + word n0 n1), by
            have hrest := length_copyOctets_le (congrArg Prod.snd _hcopy)
            have hall := b.length_alignedOctets_le
            rw [_h] at hall
            simp only [List.length_cons] at hall
            rw [Bits.remaining_ofOctets]
            omega⟩ }
  | _ => { delivery := d, rest := .error .endsEarly }

/-! ### Symbols -/

/-- The least lengths of copies and the bits that add to them, from symbol 257 on. -/
def lengthTable : Array (Nat × Nat) :=
  #[(3, 0), (4, 0), (5, 0), (6, 0), (7, 0), (8, 0), (9, 0), (10, 0), (11, 1), (13, 1), (15, 1),
    (17, 1), (19, 2), (23, 2), (27, 2), (31, 2), (35, 3), (43, 3), (51, 3), (59, 3), (67, 4),
    (83, 4), (99, 4), (115, 4), (131, 5), (163, 5), (195, 5), (227, 5), (258, 0)]

/-- The least distances of copies and the bits that add to them. -/
def distanceTable : Array (Nat × Nat) :=
  #[(1, 0), (2, 0), (3, 0), (4, 0), (5, 1), (7, 1), (9, 2), (13, 2), (17, 3), (25, 3), (33, 4),
    (49, 4), (65, 5), (97, 5), (129, 6), (193, 6), (257, 7), (385, 7), (513, 8), (769, 8),
    (1025, 9), (1537, 9), (2049, 10), (3073, 10), (4097, 11), (6145, 11), (8193, 12), (12289, 12),
    (16385, 13), (24577, 13)]

def badLength : String := "invalid literal/length code"

def badDistance : String := "invalid distance code"

/-- The delivery with a copy of `count` octets that stand `distance` before its end. The copy may
reach into itself. -/
def copyBack (octetsRead distance : Nat) : (count : Nat) → Delivery → Delivery
  | 0, d => d
  | count + 1, d =>
    let octet := d.octets.getD (d.octets.size - distance) 0
    copyBack octetsRead distance count (d.push octetsRead octet)

/-- The value at a place of a table, with the bits that add to it. -/
def extended? (table : Array (Nat × Nat)) (place : Nat) (reason : String) (b : Bits) :
    Except Fault (Nat × Bits.From b) :=
  match table[place]? with
  | none => .error (.broken reason b.position)
  | some (least, extra) => match b.take? extra with
    | none => .error .endsEarly
    | some (more, rest) => .ok (least + more, rest)

/-- What a symbol of the code of octets and lengths means. -/
inductive Meaning where
  | octet (value : UInt8)
  | blockEnd
  /-- A copy whose length stands at this place of the table. -/
  | copy (place : Nat)

/-- The meaning of a symbol. -/
def meaning (symbol : Nat) : Meaning :=
  if symbol < 256 then .octet (UInt8.ofNat symbol)
  else if symbol = 256 then .blockEnd
  else .copy (symbol - 257)

/-- The length and the distance of a copy whose length stands at this place of the table. -/
def copy? (distances : PrefixCode) (place : Nat) (b : Bits) :
    Except Fault (Nat × Nat × Bits.From b) :=
  match extended? lengthTable place badLength b with
  | .error fault => .error fault
  | .ok (length, ⟨b₁, h₁⟩) => match distances.symbol? badDistance b₁ with
    | .error fault => .error fault
    | .ok (place, ⟨b₂, h₂⟩) => match extended? distanceTable place badDistance b₂ with
      | .error fault => .error fault
      | .ok (distance, ⟨b₃, h₃⟩) =>
        .ok (length, distance, ⟨b₃, Nat.le_trans h₃ (Nat.le_trans (Nat.le_of_lt h₂) h₁)⟩)

/-- The symbols of a block up to its end. -/
def symbols (lengths distances : PrefixCode) {bound : Nat} (b : Bits) (hb : b.remaining < bound)
    (d : Delivery) : Inflated bound :=
  match lengths.symbol? badLength b with
  | .error fault => { delivery := d, rest := .error fault }
  | .ok (symbol, ⟨rest, h⟩) =>
    match meaning symbol with
    | .octet value =>
      symbols lengths distances rest (Nat.lt_trans h hb)
        ((d.readTo rest.position).push rest.octetsRead value)
    | .blockEnd => { delivery := d.readTo rest.position, rest := .ok ⟨rest, Nat.lt_trans h hb⟩ }
    | .copy place => match copy? distances place rest with
      | .error fault => { delivery := d, rest := .error fault }
      | .ok (length, distance, ⟨rest', h'⟩) =>
        -- There has to be room for the copy before its distance is looked at.
        let d := (d.readTo rest'.position).withRoom rest'.octetsRead
        -- No copy starts before the first octet.
        if d.octets.size < distance then
          { delivery := d
            rest := .error (.broken "invalid distance too far back" rest'.position) }
        else
          symbols lengths distances rest' (Nat.lt_of_le_of_lt h' (Nat.lt_trans h hb))
            (copyBack rest'.octetsRead distance length d)
termination_by b.remaining
decreasing_by
  · exact h
  · exact Nat.lt_of_le_of_lt h' h

/-! ### The codes of a block -/

/-- The fixed code of octets and lengths. -/
def fixedLengths : PrefixCode :=
  .ofLengths (List.replicate 144 8 ++ List.replicate 112 9 ++ List.replicate 24 7 ++
    List.replicate 8 8)

/-- The fixed code of distances. -/
def fixedDistances : PrefixCode := .ofLengths (List.replicate 32 5)

/-- The order in which the word lengths of the code of word lengths stand. -/
def lengthOrder : List Nat :=
  [16, 17, 18, 0, 8, 7, 9, 6, 10, 5, 11, 4, 12, 3, 13, 2, 14, 1, 15]

/-- The next `count` numbers of three bits. -/
def threeBitNumbers? (b : Bits) : (count : Nat) → Option (List Nat × Bits.From b)
  | 0 => some ([], ⟨b, Nat.le_refl _⟩)
  | count + 1 => do
    let (n, ⟨rest, h⟩) ← b.take? 3
    let (ns, ⟨rest', h'⟩) ← threeBitNumbers? rest count
    pure (n :: ns, ⟨rest', Nat.le_trans h' h⟩)

/-- A symbol of the code of word lengths: the length that it repeats, if there is one, how often at
least, and the bits that add to that. -/
def repetition (symbol : Nat) (done : List Nat) : Option Nat × Nat × Nat :=
  if symbol < 16 then (some symbol, 1, 0)
  else if symbol = 16 then (done.head?, 3, 2)
  else if symbol = 17 then (some 0, 3, 3)
  else (some 0, 11, 7)

/-- The word lengths of a block's codes, of which `count` are missing and `done` are there, the
latest first. -/
def wordLengths? (code : PrefixCode) (b : Bits) (count : Nat) (done : List Nat) :
    Except Fault (List Nat × Bits.From b) :=
  if count = 0 then .ok (done.reverse, ⟨b, Nat.le_refl _⟩)
  else match code.symbol? "invalid code lengths set" b with
    | .error fault => .error fault
    | .ok (symbol, ⟨b₁, h₁⟩) =>
      let (length?, least, extra) := repetition symbol done
      match b₁.take? extra with
      | none => .error .endsEarly
      | some (more, ⟨b₂, h₂⟩) => match length? with
        | none => .error (.broken "invalid bit length repeat" b₂.position)
        | some length =>
          -- A repetition ends with the last length at the latest.
          if count < least + more then .error (.broken "invalid bit length repeat" b₂.position)
          else match wordLengths? code b₂ (count - (least + more))
              (List.replicate (least + more) length ++ done) with
            | .error fault => .error fault
            | .ok (lengths, ⟨b₃, h₃⟩) =>
              .ok (lengths, ⟨b₃, Nat.le_trans h₃ (Nat.le_trans h₂ (Nat.le_of_lt h₁))⟩)
termination_by b.remaining
decreasing_by exact Nat.lt_of_le_of_lt h₂ h₁

/-- The code of these word lengths, which have to fit together. A single word of one bit may stand
for itself, and so may no word at all. -/
def code? (lengths : List Nat) : Option PrefixCode :=
  let code := PrefixCode.ofLengths lengths
  let incomplete := 0 < code.slack && 1 < PrefixCode.longest lengths
  if code.slack < 0 || incomplete then none else some code

/-- The code of word lengths, whose own word lengths are these, in their order. It has to be
complete. If it has no word, each bit stands for the length zero. -/
def lengthCode? (lengths : List Nat) : Option PrefixCode :=
  let code := PrefixCode.ofLengths <|
    (List.range lengthOrder.length).map fun symbol =>
      ((lengthOrder.zip lengths).lookup symbol).getD 0
  if lengths.all (· = 0) then some (.constant 0)
  else if code.slack = 0 then some code
  else none

/-- The codes that stand at the start of a block. -/
def codes? (b : Bits) : Except Fault (PrefixCode × PrefixCode × Bits.From b) := do
  let some (hlit, ⟨b₁, h₁⟩) := b.take? 5 | .error .endsEarly
  let some (hdist, ⟨b₂, h₂⟩) := b₁.take? 5 | .error .endsEarly
  let some (hclen, ⟨b₃, h₃⟩) := b₂.take? 4 | .error .endsEarly
  -- The last symbols that the numbers could announce have no meaning.
  if 286 < hlit + 257 || 30 < hdist + 1 then
    .error (.broken "too many length or distance symbols" b₃.position)
  let some (ownLengths, ⟨b₄, h₄⟩) := threeBitNumbers? b₃ (hclen + 4) | .error .endsEarly
  let some lengthCode := lengthCode? ownLengths
    | .error (.broken "invalid code lengths set" b₄.position)
  let (all, ⟨b₅, h₅⟩) ← wordLengths? lengthCode b₄ (hlit + 257 + (hdist + 1)) []
  -- A block that has no word for its end could not end.
  if all[256]?.getD 0 = 0 then
    .error (.broken "invalid code -- missing end-of-block" b₅.position)
  let some lengths := code? (all.take (hlit + 257))
    | .error (.broken "invalid literal/lengths set" b₅.position)
  let some distances := code? (all.drop (hlit + 257))
    | .error (.broken "invalid distances set" b₅.position)
  pure (lengths, distances,
    ⟨b₅, Nat.le_trans h₅ (Nat.le_trans h₄ (Nat.le_trans h₃ (Nat.le_trans h₂ h₁)))⟩)

/-! ### Blocks -/

/-- A block of the given type. -/
def block (type : Nat) {bound : Nat} (b : Bits) (hb : b.remaining < bound) (d : Delivery) :
    Inflated bound :=
  match type with
  | 0 => storedBlock b hb d
  | 1 => symbols fixedLengths fixedDistances b hb d
  | 2 => match codes? b with
    | .error fault => { delivery := d, rest := .error fault }
    | .ok (lengths, distances, ⟨rest, h⟩) =>
      symbols lengths distances rest (Nat.lt_of_le_of_lt h hb) d
  | _ => { delivery := d, rest := .error (.broken "invalid block type" b.position) }

/-- The blocks up to the last one. -/
def blocks {bound : Nat} (b : Bits) (hb : b.remaining ≤ bound) (d : Delivery) : Inflated bound :=
  match b.next? with
  | none => { delivery := d, rest := .error .endsEarly }
  | some (last, ⟨b₁, h₁⟩) => match b₁.take? 2 with
    | none => { delivery := d, rest := .error .endsEarly }
    | some (type, ⟨b₂, h₂⟩) =>
      match block type b₂ (Nat.lt_of_le_of_lt h₂ h₁) d with
      | { delivery, rest := .error fault } => { delivery, rest := .error fault }
      | { delivery, rest := .ok ⟨b₃, h₃⟩ } =>
        if last = 1 then { delivery, rest := .ok ⟨b₃, Nat.lt_of_lt_of_le h₃ hb⟩ }
        else blocks b₃ (Nat.le_trans (Nat.le_of_lt h₃) hb) delivery
termination_by b.remaining
decreasing_by exact h₃

/-- The octets of compressed data, and what comes after it. -/
def inflate (octets : List UInt8) : Inflated (8 * octets.length) :=
  blocks (.ofOctets octets 0) (Nat.le_of_eq (Bits.remaining_ofOctets octets 0)) .start

end ControlFile.Deflate

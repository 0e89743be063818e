import ControlFile.Octets.Bits
import ControlFile.Octets.Fault

/-!
# Prefix codes

A code that gives each symbol a word of bits, so that no word starts another, is determined by the
lengths of its words alone: words are handed out in the order of their lengths, and among those of
one length in the order of the symbols. `PrefixCode.ofLengths` builds the code,
`PrefixCode.slack` tells whether the lengths fit together, and `PrefixCode.symbol?` reads a symbol.
-/

namespace ControlFile

/-- A prefix code: how many words there are of each length from one on, and the symbols in the order
of their words. -/
structure PrefixCode where
  counts : List Nat
  symbols : Array Nat

namespace PrefixCode

/-- The length of the longest word; a symbol of length zero has no word. -/
def longest (lengths : List Nat) : Nat := lengths.foldl max 0

/-- The code in which the symbol of each place has a word of the length at that place. -/
def ofLengths (lengths : List Nat) : PrefixCode :=
  let sizes := (List.range (max 1 (longest lengths))).map (· + 1)
  { counts := sizes.map (lengths.count ·)
    symbols := (sizes.flatMap fun n =>
      (lengths.zipIdx.filter (·.1 = n)).map (·.2)).toArray }

/-- The code in which either bit is the word of this symbol. -/
def constant (symbol : Nat) : PrefixCode := { counts := [2], symbols := #[symbol, symbol] }

/-- How many more words of the greatest length there could be: none for a complete code, and less
than none where the words are too many. -/
def slack (code : PrefixCode) : Int :=
  code.counts.foldl (fun (left : Int) (count : Nat) => 2 * left - count) 1

/-- The symbol whose word comes next, given the counts of the words of the lengths still possible.
Of the length before, `word` is what was read, `first` is the first word, both doubled, and `index`
is the place of the first symbol of the lengths still possible. -/
def symbolFrom (symbols : Array Nat) (reason : String) :
    (counts : List Nat) → (word first index : Nat) → (b : Bits) →
      Except Fault (Nat × Bits.After b)
  | [], _, _, _, b => .error (.broken reason b.position)
  | count :: counts, word, first, index, b =>
    match b.next? with
    | none => .error .endsEarly
    | some (bit, ⟨rest, h⟩) =>
      -- The words of one length are consecutive numbers, so the place of a word among them is its
      -- distance from the first.
      let word := word + bit
      if word < first + count then .ok (symbols.getD (index + (word - first)) 0, ⟨rest, h⟩)
      else match symbolFrom symbols reason counts (2 * word) (2 * (first + count))
          (index + count) rest with
        | .error fault => .error fault
        | .ok (symbol, ⟨rest', h'⟩) => .ok (symbol, ⟨rest', Nat.lt_trans h' h⟩)

/-- The symbol whose word comes next. `reason` is what is wrong if there is no such word. -/
def symbol? (code : PrefixCode) (reason : String) (b : Bits) : Except Fault (Nat × Bits.After b) :=
  symbolFrom code.symbols reason code.counts 0 0 0 b

end PrefixCode

end ControlFile

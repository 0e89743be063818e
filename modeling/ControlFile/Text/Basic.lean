import ControlFile.Text.Blank

/-!
# Text

A control file is read as a sequence of Unicode code points, and all of its rules (what a line is,
where a name ends, what is trimmed) are rules on such sequences. `Text` is that sequence as a list,
so that reading is recursion on it and joining is `++`.

The operations are the ones that the format is made of:

* `trim` removes the blank characters at both ends, `words` keeps what stands between them;
* `items` splits at one character and keeps the non-empty trimmed pieces, which is how a relation
  list is read; `itemsBetween` does the same for a separator of any length;
* `cut` and `cutLast` divide a text at the first and at the last occurrence of a character;
* `join` writes a separator between texts.
-/

namespace ControlFile

/-- A text: the list of its code points. -/
abbrev Text := List Char

namespace Text

/-- The text as a string, for output. -/
def str (t : Text) : String := String.ofList t

/-! ### Trimming -/

/-- The text from its first character that is not blank. -/
def trimStart (t : Text) : Text := t.dropWhile isBlank

/-- The text up to its last character that is not blank. -/
def trimEnd (t : Text) : Text := (t.reverse.dropWhile isBlank).reverse

/-- The text without the blank characters at its two ends. -/
def trim (t : Text) : Text := (trimStart t).trimEnd

/-- A text of blank characters only; the empty text is one. -/
def allBlank (t : Text) : Bool := t.all isBlank

@[simp] theorem trimStart_nil : trimStart [] = [] := rfl

@[simp] theorem trimEnd_nil : trimEnd [] = [] := rfl

@[simp] theorem trim_nil : trim [] = [] := rfl

theorem trimStart_cons_of_isBlank {c : Char} (t : Text) (h : isBlank c = true) :
    trimStart (c :: t) = trimStart t := by
  simp [trimStart, h]

theorem trimStart_cons_of_not_isBlank {c : Char} (t : Text) (h : isBlank c = false) :
    trimStart (c :: t) = c :: t := by
  simp [trimStart, h]

/-! ### Splitting -/

/-- The maximal runs of characters that are not blank, in order. -/
def words (t : Text) : List Text := (t.splitOnP isBlank).filter (· ≠ [])

/-- The pieces of the text between the occurrences of `sep`, trimmed, without the empty ones. -/
def items (sep : Char) (t : Text) : List Text := ((t.splitOn sep).map trim).filter (· ≠ [])

/-- The pieces of a text between the occurrences of `sep`, which are found from left to right
without overlap. The accumulators hold the piece being read and the pieces before it, backwards;
`skip` counts the characters of an occurrence that are still to be passed over. -/
def piecesFrom (sep : Text) : (skip : Nat) → Text → (piece : Text) → (done : List Text) → List Text
  | _, [], piece, done => (piece.reverse :: done).reverse
  | skip + 1, _ :: t, piece, done => piecesFrom sep skip t piece done
  | 0, c :: t, piece, done =>
    if sep.isPrefixOf (c :: t) then piecesFrom sep (sep.length - 1) t [] (piece.reverse :: done)
    else piecesFrom sep 0 t (c :: piece) done

/-- The pieces of a text between the occurrences of the separator `sep`. -/
def pieces (sep t : Text) : List Text :=
  match sep with
  | [c] => t.splitOn c
  | _ => piecesFrom sep 0 t [] []

/-- The non-empty trimmed pieces between the occurrences of `sep`; no text can be split at an empty
separator. -/
def itemsBetween? (sep t : Text) : Option (List Text) :=
  if sep = [] then none else some (((pieces sep t).map trim).filter (· ≠ []))

/-- Splitting at a text of one character is splitting at that character. -/
@[simp] theorem itemsBetween?_singleton (c : Char) (t : Text) :
    itemsBetween? [c] t = some (items c t) := rfl

/-! ### Dividing and joining -/

/-- The text before the first `c` and the text after it, if there is a `c`. -/
def cut? (c : Char) (t : Text) : Option (Text × Text) :=
  match t.dropWhile (· != c) with
  | [] => none
  | _ :: rest => some (t.takeWhile (· != c), rest)

/-- The text before the last `c` and the text after it, if there is a `c`. -/
def cutLast? (c : Char) (t : Text) : Option (Text × Text) :=
  (cut? c t.reverse).map fun (after, before) => (before.reverse, after.reverse)

/-- The text without the lead `lead`, or the whole text if it does not start with it. -/
def dropLead (lead t : Text) : Text := (lead.isPrefixOf? t).getD t

/-- The texts with `sep` between each two of them. -/
def join (sep : Text) (ts : List Text) : Text := sep.intercalate ts

/-- Every occurrence of the character `old` replaced by `new`. -/
def replace (old new : Char) (t : Text) : Text := t.map fun c => if c = old then new else c

theorem cut?_eq_none {c : Char} {t : Text} (h : c ∉ t) : cut? c t = none := by
  have : t.dropWhile (· != c) = [] := by
    induction t with
    | nil => rfl
    | cons x t ih =>
      have hx : x ≠ c := fun e => h (e ▸ List.mem_cons_self)
      simp [hx, ih fun ht => h (List.mem_cons_of_mem x ht)]
  simp [cut?, this]

theorem cut?_append_cons {c : Char} {a : Text} (b : Text) (h : c ∉ a) :
    cut? c (a ++ c :: b) = some (a, b) := by
  have ha : ∀ x ∈ a, (x != c) = true := fun x hx => bne_iff_ne.2 fun e => h (e ▸ hx)
  simp [cut?, List.dropWhile_append_of_pos ha, List.takeWhile_append_of_pos ha]

end Text

end ControlFile

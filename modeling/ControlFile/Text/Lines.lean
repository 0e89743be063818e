import ControlFile.Text.Basic

/-!
# Lines of a value

The lines of a text by every line end that Unicode knows: the newline, the carriage return, the
two together, the vertical tabulator, the form feed, the separators of files, groups and records,
the next-line control, and the separators of lines and paragraphs. A source of records ends its
lines at newlines only; this wider notion is for the values of a paragraph.

`Text.lines` leaves the line ends out, and an end at the end of the text adds no line.
-/

namespace ControlFile

/-- A character that ends a line by itself. -/
def isLineEnd (c : Char) : Bool :=
  (0x0A ≤ c.toNat && c.toNat ≤ 0x0D) || (0x1C ≤ c.toNat && c.toNat ≤ 0x1E) || c.toNat == 0x85 ||
    c.toNat == 0x2028 || c.toNat == 0x2029

namespace Text

/-- The lines of a text. The accumulators hold the line being read and the lines before it,
backwards. -/
def linesFrom : Text → (line : Text) → (done : List Text) → List Text
  | [], [], done => done.reverse
  | [], line, done => (line.reverse :: done).reverse
  | '\r' :: '\n' :: t, line, done => linesFrom t [] (line.reverse :: done)
  | c :: t, line, done =>
    if isLineEnd c then linesFrom t [] (line.reverse :: done) else linesFrom t (c :: line) done

/-- The lines of a text, without their ends. -/
def lines (t : Text) : List Text := linesFrom t [] []

end Text

end ControlFile

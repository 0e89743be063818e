import ControlFile.Text.Basic

/-!
# Upper case

Names of fields, flags and states are looked up in upper case, and every name that can be found is
written in ASCII. So only the characters whose upper case is made of ASCII letters matter: the
small letters of ASCII and ten others, among them the dotless i, the long s and the Latin
ligatures, some of which become several letters. `Text.upper` maps these and keeps every other
character; a character of no ASCII upper case stays one in either reading, and spoils the look-up.
-/

namespace ControlFile

/-- The characters beyond ASCII whose upper case is in ASCII, with it. -/
def upperExceptions : List (Char × Text) :=
  [('\u00df', ['S', 'S']), ('\u0131', ['I']), ('\u017f', ['S']), ('\ufb00', ['F', 'F']),
    ('\ufb01', ['F', 'I']), ('\ufb02', ['F', 'L']), ('\ufb03', ['F', 'F', 'I']),
    ('\ufb04', ['F', 'F', 'L']), ('\ufb05', ['S', 'T']), ('\ufb06', ['S', 'T'])]

/-- The upper case of a character, as far as it is in ASCII. -/
def upperChar (c : Char) : Text :=
  if c.toNat < 0x80 then [c.toUpper] else (upperExceptions.lookup c).getD [c]

namespace Text

/-- The text in upper case, as far as the upper case is in ASCII. -/
def upper (t : Text) : Text := t.flatMap upperChar

@[simp] theorem upper_nil : upper [] = [] := rfl

@[simp] theorem upper_cons (c : Char) (t : Text) : upper (c :: t) = upperChar c ++ upper t := rfl

@[simp] theorem upper_append (s t : Text) : upper (s ++ t) = upper s ++ upper t :=
  List.flatMap_append

end Text

end ControlFile

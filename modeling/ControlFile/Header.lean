import ControlFile.Field.Set

/-!
# Header lines

A line that starts with the name of a recognised field and a colon is the field's header. The
`catalogue` lists the names: one for each field, and a second spelling of one of them that old
files use.

A line is recognised by its first character and then by comparing names (`Header.scan`), which
passes over the names of fields that are not selected and reports them. `Header.named?` is the plain
look-up of a name.
-/

namespace ControlFile

/-- A name under which a field is recognised. -/
structure Header where
  name : Text
  field : Field
  deriving DecidableEq, Repr

namespace Header

/-- The older spellings of a field's name. -/
def olderNames : Field → List Text
  | .md5sum => ["MD5Sum".toList]
  | _ => []

/-- The recognised names, in the order of their fields. -/
def catalogue : List Header :=
  Field.all.flatMap fun f => (f.name :: olderNames f).map (⟨·, f⟩)

/-- The headers whose name starts with the given character. -/
def withInitial (c : Char) : List Header := catalogue.filter (·.name.head? = some c)

/-- The first characters of the names, each once, in order. -/
def initials : List Char := (catalogue.filterMap (·.name.head?)).eraseDups

/-- Whether a line is the header with this name: the name, with a colon directly after it. -/
def heads (name line : Text) : Bool := (name ++ [':']).isPrefixOf line

/-- The value on a header line: what follows the name and the colon, without blanks around it. -/
def valueAfter (name line : Text) : Text := Text.trim (line.drop (name.length + 1))

/-- The first of the headers that the line is one of and whose field is selected, and the headers
before it that the line is one of and whose fields are not selected. -/
def scan (mask : FieldSet) (line : Text) : List Header → Option Header × List Header
  | [] => (none, [])
  | h :: hs =>
    if heads h.name line then
      if h.field ∈ mask then (some h, [])
      else
        let (found, skipped) := scan mask line hs
        (found, h :: skipped)
    else scan mask line hs

/-- The headers that the line may be: those with its first character. -/
def candidates : Text → List Header
  | [] => []
  | c :: _ => withInitial c

/-- The selected header that the line is, and the headers passed over as not selected. -/
def recognise (mask : FieldSet) (line : Text) : Option Header × List Header :=
  scan mask line (candidates line)

/-- The header of exactly this name. -/
def named? (name : Text) : Option Header := catalogue.find? (·.name = name)

/-- The header of a line by look-up: the one named by the text before the first colon. -/
def ofLine? (line : Text) : Option Header := (line.cut? ':').bind fun (name, _) => named? name

end Header

end ControlFile

import ControlFile.Config
import ControlFile.Header
import ControlFile.Package.Paragraph

/-!
# Tables

Two things are shown as tables: a record, with a row for each field that is set, and the catalogue
of the recognised names. A `Table` is the content of such a table; how it is drawn is left to
whoever shows it.
-/

namespace ControlFile

/-- The content of a table. -/
structure Table where
  title : Option Text := none
  header : List Text
  rows : List (List Text)
  deriving DecidableEq, Repr

/-- The table of a record. The newlines at the start of a value are not shown. A record with an
architecture has a last row for its priority. -/
def Package.table? (p : Package) : Except Error Table := do
  let fields ← p.fields?
  let rows := fields.map fun (name, value) => [name, value.dropWhile (· = '\n')]
  -- A priority is that of an architecture, so it is not shown without one.
  let priority ← match p.architecture with
    | none => .ok []
    | some _ => (Numeral.signed? p.archPriority).map fun n => [["Arch-Priority".toList, n]]
  pure
    { title := p.name
      header := ["Field".toList, "Value".toList]
      rows := rows ++ priority }

/-- The table of the recognised names, which tells the fields that are forced off. -/
def Header.table (forced : FieldSet) : Table :=
  { header := ["Field".toList, "Mask".toList, "Forced off".toList]
    rows := catalogue.map fun h =>
      [h.name, h.field.key, if h.field ∈ forced then "yes".toList else []] }

end ControlFile

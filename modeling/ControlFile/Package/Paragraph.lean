import ControlFile.Package.Basic
import ControlFile.Text.Lines

/-!
# Writing a record as a paragraph

A record is written back as the fields that are set, in a fixed order (`Field.written`), each with
the text of its value (`Package.fieldText?`).

* `Package.fields?` gives the names and the texts;
* `Package.paragraph?` gives the paragraph: a line for each field, or more if its text has
  newlines. A text with newlines is checked first (`Unwritable.check`), so that no line of it can be
  taken for a header or for the end of the record.

A number that is too long to be written is the only other obstacle. That of the version is met
before anything else is written.
-/

namespace ControlFile

/-- The fields in the order in which they are written. -/
def Field.written : List Field :=
  [.package, .version, .architecture, .maintainer, .installedSize, .installedTime, .depends,
    .preDepends, .recommends, .suggests, .provides, .replaces, .conflicts, .status, .sectionName,
    .priority, .essential, .autoInstalled, .source, .tags, .filename, .size, .md5sum, .sha256sum,
    .conffiles, .description]

/-- Why a paragraph cannot hold a text, if it cannot. Only a text with newlines is looked at. The
lines after the first must be neither empty nor start without a blank. -/
def Unwritable.check (t : Text) : Except Unwritable Unit :=
  if !t.contains '\n' then .ok ()
  else if t.getLast? = some '\n' then .error .finalNewline
  else (t.lines.drop 1).forM fun line =>
    match line with
    | [] => .error .emptyLine
    | c :: _ => if isBlank c then .ok () else .error .unindentedLine

namespace Package

/-- The text of the value in a slot, if it is set. -/
def slotText? (p : Package) : Slot → Option (Except Error Text)
  | .text a => (p.getText a).map .ok
  | .number a => (p.getNumber a).map Numeral.signed?
  | .switch a => if p.getSwitch a then some (.ok "yes".toList) else none
  | .relation a =>
    if p.getRelation a = [] then none else some (.ok (Text.join [',', ' '] (p.getRelation a)))
  | .architecture => p.architecture.map .ok
  | .version => p.fullVersion.map Version.text?
  | .status => p.status.map fun s => .ok s.text

/-- The text of a list of configuration files: an indented line for each, after an empty first
line. -/
def conffilesText (cs : List Conffile) : Text := cs.flatMap fun c => '\n' :: ' ' :: c.text

/-- The text of a field's value, if it is set. -/
def fieldText? (p : Package) (f : Field) : Option (Except Error Text) :=
  match f.kind with
  | .single slot => p.slotText? slot
  | .description => p.description.map .ok
  | .conffiles => if p.conffiles = [] then none else some (.ok (conffilesText p.conffiles))

/-- The fields that are set, with the texts of their values, in the order of writing. -/
def fieldTexts (p : Package) : List (Field × Except Error Text) :=
  Field.written.filterMap fun f => (p.fieldText? f).map (f, ·)

/-- What `write` gives for each field that is set, in order, up to the first error. -/
def mapFields {α : Type} (p : Package) (write : Field → Text → Except Error α) :
    Except Error (List α) := do
  -- The version is put together before the first field is written.
  let _ ← p.fullVersionText?
  p.fieldTexts.mapM fun (f, text?) => text?.bind (write f)

/-- The names and the texts of the fields that are set. -/
def fields? (p : Package) : Except Error (List (Text × Text)) :=
  p.mapFields fun f t => .ok (f.name, t)

/-- A field in a paragraph. A space follows the colon if there is something on its line. -/
def fieldLines (f : Field) (t : Text) : Text :=
  match t with
  | [] | '\n' :: _ => f.name ++ ':' :: t ++ ['\n']
  | _ => f.name ++ ':' :: ' ' :: t ++ ['\n']

/-- A field in a paragraph, if its text can be held. -/
def fieldLines? (f : Field) (t : Text) : Except Error Text :=
  match Unwritable.check t with
  | .ok () => .ok (fieldLines f t)
  | .error cause => .error (.unwritable cause)

/-- The paragraph of a record. -/
def paragraph? (p : Package) : Except Error Text := (p.mapFields fieldLines?).map List.flatten

end Package

end ControlFile

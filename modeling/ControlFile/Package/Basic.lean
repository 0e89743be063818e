import ControlFile.Conffile
import ControlFile.Status.Basic
import ControlFile.Version

/-!
# Package records

What is known of one package. Every attribute has a value from the start, so that a record of no
lines is a `Package` too: texts, numbers and states start absent, lists start empty, and switches
start off.

The attributes that are stored alike are reached through their names: `getText` and `setText` for
texts, and so on. Each setter has two laws, what it stores and what it leaves alone.
-/

namespace ControlFile

/-- What is known of one package. -/
structure Package where
  name : Option Text := none
  architecture : Option Text := none
  archPriority : Int := 0
  epoch : Int := 0
  version : Option Text := none
  revision : Option Text := none
  want : Option Want := none
  flags : Option FlagSet := none
  stage : Option Stage := none
  size : Option Int := none
  installedSize : Option Int := none
  installedTime : Option Int := none
  maintainer : Option Text := none
  sectionName : Option Text := none
  source : Option Text := none
  tags : Option Text := none
  priority : Option Text := none
  filename : Option Text := none
  md5sum : Option Text := none
  sha256sum : Option Text := none
  depends : List Text := []
  preDepends : List Text := []
  recommends : List Text := []
  suggests : List Text := []
  conflicts : List Text := []
  replaces : List Text := []
  provides : List Text := []
  description : Option Text := none
  conffiles : List Conffile := []
  essential : Bool := false
  autoInstalled : Bool := false
  deriving DecidableEq

namespace Package

/-! ### Texts -/

/-- The value of a text attribute. -/
def getText (p : Package) : TextAttribute → Option Text
  | .name => p.name
  | .maintainer => p.maintainer
  | .sectionName => p.sectionName
  | .source => p.source
  | .tags => p.tags
  | .priority => p.priority
  | .filename => p.filename
  | .md5sum => p.md5sum
  | .sha256sum => p.sha256sum

/-- The record with another value for a text attribute. -/
def setText (p : Package) (target : TextAttribute) (value : Option Text) : Package :=
  match target with
  | .name => { p with name := value }
  | .maintainer => { p with maintainer := value }
  | .sectionName => { p with sectionName := value }
  | .source => { p with source := value }
  | .tags => { p with tags := value }
  | .priority => { p with priority := value }
  | .filename => { p with filename := value }
  | .md5sum => { p with md5sum := value }
  | .sha256sum => { p with sha256sum := value }

@[simp] theorem getText_setText (p : Package) (a : TextAttribute) (value : Option Text) :
    (p.setText a value).getText a = value := by
  cases a <;> rfl

theorem getText_setText_of_ne (p : Package) {a b : TextAttribute} (value : Option Text)
    (h : b ≠ a) : (p.setText a value).getText b = p.getText b := by
  cases a <;> cases b <;> trivial

/-! ### Numbers -/

/-- The value of a number attribute. -/
def getNumber (p : Package) : NumberAttribute → Option Int
  | .size => p.size
  | .installedSize => p.installedSize
  | .installedTime => p.installedTime

/-- The record with another value for a number attribute. -/
def setNumber (p : Package) (target : NumberAttribute) (value : Option Int) : Package :=
  match target with
  | .size => { p with size := value }
  | .installedSize => { p with installedSize := value }
  | .installedTime => { p with installedTime := value }

@[simp] theorem getNumber_setNumber (p : Package) (a : NumberAttribute) (value : Option Int) :
    (p.setNumber a value).getNumber a = value := by
  cases a <;> rfl

theorem getNumber_setNumber_of_ne (p : Package) {a b : NumberAttribute} (value : Option Int)
    (h : b ≠ a) : (p.setNumber a value).getNumber b = p.getNumber b := by
  cases a <;> cases b <;> trivial

/-! ### Switches -/

/-- The value of a switch. -/
def getSwitch (p : Package) : Switch → Bool
  | .essential => p.essential
  | .autoInstalled => p.autoInstalled

/-- The record with another value for a switch. -/
def setSwitch (p : Package) (target : Switch) (value : Bool) : Package :=
  match target with
  | .essential => { p with essential := value }
  | .autoInstalled => { p with autoInstalled := value }

@[simp] theorem getSwitch_setSwitch (p : Package) (a : Switch) (value : Bool) :
    (p.setSwitch a value).getSwitch a = value := by
  cases a <;> rfl

theorem getSwitch_setSwitch_of_ne (p : Package) {a b : Switch} (value : Bool) (h : b ≠ a) :
    (p.setSwitch a value).getSwitch b = p.getSwitch b := by
  cases a <;> cases b <;> trivial

/-! ### Relations -/

/-- The value of a relation attribute. -/
def getRelation (p : Package) : Relation → List Text
  | .depends => p.depends
  | .preDepends => p.preDepends
  | .recommends => p.recommends
  | .suggests => p.suggests
  | .conflicts => p.conflicts
  | .replaces => p.replaces
  | .provides => p.provides

/-- The record with another value for a relation attribute. -/
def setRelation (p : Package) (target : Relation) (value : List Text) : Package :=
  match target with
  | .depends => { p with depends := value }
  | .preDepends => { p with preDepends := value }
  | .recommends => { p with recommends := value }
  | .suggests => { p with suggests := value }
  | .conflicts => { p with conflicts := value }
  | .replaces => { p with replaces := value }
  | .provides => { p with provides := value }

@[simp] theorem getRelation_setRelation (p : Package) (a : Relation) (value : List Text) :
    (p.setRelation a value).getRelation a = value := by
  cases a <;> rfl

theorem getRelation_setRelation_of_ne (p : Package) {a b : Relation} (value : List Text)
    (h : b ≠ a) : (p.setRelation a value).getRelation b = p.getRelation b := by
  cases a <;> cases b <;> trivial

/-! ### Assembled values -/

/-- The version of the record, with its epoch and revision, if it has one. -/
def fullVersion (p : Package) : Option Version := p.version.map (⟨p.epoch, ·, p.revision⟩)

/-- The text of the record's version. -/
def fullVersionText? (p : Package) : Except Error (Option Text) :=
  match p.fullVersion with
  | none => .ok none
  | some v => v.text?.map some

/-- The status of the record, if all of its parts are set. -/
def status (p : Package) : Option Status :=
  match p.want, p.flags, p.stage with
  | some want, some flags, some stage => some ⟨want, flags, stage⟩
  | _, _, _ => none

end Package

end ControlFile

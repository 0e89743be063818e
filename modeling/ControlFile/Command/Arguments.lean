import ControlFile.Text.Basic

/-!
# Command lines

The program has three commands: one shows the records of a file, one lists the recognised fields,
and one takes a version apart. `Invocation.parse?` reads a command line; it has no result where the
words do not fit the rules:

* A word that starts with a hyphen and goes on is an option, up to the word `--`, after which all
  words are operands.
* A long option has its value after `=` or in the next word, a short one in the rest of its word or
  in the next. The value may start with a hyphen.
* Options of the command stand anywhere after its name. Only the option for verbose messages stands
  before the name; it has no value and can be repeated, also within one word.
-/

namespace ControlFile

/-- How records are shown. -/
inductive Format where
  | table | json | control
  deriving DecidableEq, Repr

/-- What to show of a file. -/
structure Selection where
  path : Text
  /-- The names of the fields to read. None stand for all. -/
  fields : List Text := []
  /-- The names of the fields to leave out. -/
  exclude : List Text := []
  format : Format := .table
  /-- Entries of an architecture list. None stand for the configured list. -/
  architectures : List Text := []
  deriving DecidableEq, Repr

/-- What the program is asked to do. -/
inductive Command where
  /-- Shows the records of a file. -/
  | records (selection : Selection)
  /-- Lists the recognised fields. -/
  | fields
  /-- Takes a version apart. -/
  | version (value : Text)
  deriving DecidableEq, Repr

/-- A command, and whether debug messages are asked for. -/
structure Invocation where
  command : Command
  verbose : Bool := false
  deriving DecidableEq, Repr

/-! ### Options and operands -/

/-- A word of a command line, after options have found their values. -/
inductive Argument (Option : Type) where
  | operand (word : Text)
  | option (name : Option) (value : Text)
  deriving DecidableEq, Repr

/-- The options of a command by their names. Every option has a value. -/
structure OptionNames (Name : Type) where
  long? : Text → Option Name
  short? : Char → Option Name

/-- The arguments that the words after a command make up. -/
def OptionNames.scan? {Name : Type} (names : OptionNames Name) :
    List Text → Option (List (Argument Name))
  | [] => some []
  | word :: words =>
    match word with
    -- This word ends the options, but it is itself a value where one is due.
    | ['-', '-'] => some (words.map .operand)
    | '-' :: '-' :: _ => match Text.cut? '=' word with
      | some (name, value) => do
        let name ← names.long? name
        let rest ← names.scan? words
        pure (.option name value :: rest)
      | none => match words with
        | [] => none
        | value :: words => do
          let name ← names.long? word
          let rest ← names.scan? words
          pure (.option name value :: rest)
    | ['-', c] => match words with
      | [] => none
      | value :: words => do
        let name ← names.short? c
        let rest ← names.scan? words
        pure (.option name value :: rest)
    | '-' :: c :: value => do
      let name ← names.short? c
      let rest ← names.scan? words
      pure (.option name value :: rest)
    | _ => (names.scan? words).map (.operand word :: ·)

/-- The operands among arguments. -/
def operands {Name : Type} (args : List (Argument Name)) : List Text :=
  args.filterMap fun
    | .operand word => some word
    | .option .. => none

/-- The values of an option among arguments. -/
def valuesOf {Name : Type} [DecidableEq Name] (name : Name) (args : List (Argument Name)) :
    List Text :=
  args.filterMap fun
    | .operand _ => none
    | .option other value => if other = name then some value else none

/-! ### Commands -/

/-- The options of the command that shows records. -/
inductive SelectionOption where
  | field | exclude | format | architecture
  deriving DecidableEq, Repr

/-- The names of the options of the command that shows records. -/
def SelectionOption.names : OptionNames SelectionOption where
  long? name :=
    if name = "--field".toList then some .field
    else if name = "--exclude".toList then some .exclude
    else if name = "--format".toList then some .format
    else if name = "--arch".toList then some .architecture
    else none
  short? c :=
    if c = 'f' then some .field
    else if c = 'x' then some .exclude
    else if c = 'a' then some .architecture
    else none

/-- No options. -/
def noOptions : OptionNames Empty where
  long? _ := none
  short? _ := none

/-- The format of this name. -/
def Format.ofName? (name : Text) : Option Format :=
  if name = "table".toList then some .table
  else if name = "json".toList then some .json
  else if name = "control".toList then some .control
  else none

/-- What to show of a file, from the words after the command. Of several formats the last one
counts. -/
def Selection.parse? (words : List Text) : Option Selection := do
  let args ← SelectionOption.names.scan? words
  let [path] := operands args | none
  let format ← match (valuesOf .format args).getLast? with
    | none => some Format.table
    | some name => Format.ofName? name
  pure
    { path, format
      fields := valuesOf .field args
      exclude := valuesOf .exclude args
      architectures := valuesOf .architecture args }

/-- The command of these words, of which the first is its name. -/
def Command.parse? : List Text → Option Command
  | [] => none
  | name :: words =>
    if name = "show".toList then (Selection.parse? words).map .records
    else if name = "fields".toList then do
      let [] := operands (← noOptions.scan? words) | none
      pure .fields
    else if name = "version".toList then do
      let [value] := operands (← noOptions.scan? words) | none
      pure (.version value)
    else none

/-- The command of a command line. -/
def Invocation.parse? : List Text → Option Invocation
  | [] => none
  | word :: words =>
    if word = ['-', '-'] then (Command.parse? words).map ({ command := · })
    else if word = "--verbose".toList then
      (Invocation.parse? words).map ({ · with verbose := true })
    else match word with
      | '-' :: c :: cs =>
        if (c :: cs).all (· = 'v') then (Invocation.parse? words).map ({ · with verbose := true })
        else none
      | _ => (Command.parse? (word :: words)).map ({ command := · })

end ControlFile

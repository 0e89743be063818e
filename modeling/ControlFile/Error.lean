import ControlFile.Numeral.Basic
import ControlFile.Setting
import ControlFile.Text.Quoted

/-!
# Errors

What can go wrong, by cause. Four groups differ in how the reader treats them:

* a `Malformed` value of a recognised field, which is reported and skipped;
* `Damage` to compressed data and the other read failures (`Error.isReadFailure`), which end the
  reading of a source;
* an `Unwritable` value, which a paragraph cannot hold;
* everything else, which ends the operation at once.

`Error.message` is the wording of each.
-/

namespace ControlFile

/-- A value that its field does not admit. -/
inductive Malformed where
  /-- The value is no unsigned integer. -/
  | number (value : Text)
  /-- The value is not made of three words. -/
  | status (words : Nat) (value : Text)
  /-- The line is not made of a path and a checksum. -/
  | conffile (words : Nat) (line : Text)
  deriving DecidableEq, Repr

/-- What makes compressed data unreadable from some point on. -/
inductive Damage where
  /-- The data does not start like a compressed member; `lead` are its first octets. -/
  | badMagic (lead : List UInt8)
  /-- The member names a compression method other than the known one. -/
  | unknownMethod
  /-- The checksum of the data is not the stored one. -/
  | badChecksum (stored computed : Nat)
  /-- The length of the data is not the stored one. -/
  | badLength
  /-- The data ends inside a member. -/
  | endsEarly
  /-- A block of the data breaks the rules of the compression in the way that `reason` names. -/
  | badBlock (reason : String)
  deriving DecidableEq, Repr

/-- Why there is no file to read at a path. -/
inductive Unopenable where
  /-- Nothing has this path. -/
  | noSuchFile
  /-- The path is that of a directory. -/
  | isDirectory
  /-- The path, or a name in it, is longer than paths and names can be. -/
  | nameTooLong
  deriving DecidableEq, Repr

/-- Where the text of a stream is kept. -/
inductive Medium where
  | memory
  | file
  deriving DecidableEq, Repr

/-- Why a paragraph cannot hold a value. -/
inductive Unwritable where
  /-- The value ends with a newline. -/
  | finalNewline
  /-- A line after the first is empty. -/
  | emptyLine
  /-- A line after the first does not start with a blank character. -/
  | unindentedLine
  deriving DecidableEq, Repr

/-- The causes for which an operation gives no result. -/
inductive Error where
  /-- A recognised field holds a value that it does not admit. -/
  | malformed (cause : Malformed)
  /-- A decimal text is too long to be converted. -/
  | tooManyDigits (count : Nat)
  /-- A number is too long to be written in decimal. -/
  | numberTooLong
  /-- No recognised field has this name. -/
  | unknownField (name : Text)
  /-- An entry of an architecture list has no name. -/
  | unnamedArchitecture (entry : Text)
  /-- The priority of an architecture is no integer. -/
  | badPriority (name priority : Text)
  /-- A setting that has to be an integer is none. -/
  | notAnInteger (setting : Setting) (value : Text)
  /-- The line limit is zero or negative. -/
  | lineLimitNotPositive
  /-- No want state has this code. -/
  | noSuchWant (code : Int)
  /-- No stage has this code. -/
  | noSuchStage (code : Int)
  /-- A text cannot be split at an empty separator. -/
  | emptySeparator
  /-- A session that has seen the end of its record was given another line. -/
  | sessionFinished
  /-- A line is longer than the limit. -/
  | lineTooLong (line : Nat) (limit : Int)
  /-- The compressed data behind a source is damaged after this many lines. -/
  | corruptData (source : Text) (line : Nat) (damage : Damage)
  /-- The data behind a source is damaged, reported as it stands. -/
  | damaged (damage : Damage)
  /-- There is no file to read at this path. -/
  | cannotOpen (cause : Unopenable) (path : Text)
  /-- A path has a null character in it, which ends paths. -/
  | nullInPath
  /-- The characters that a line limit tells to look at are more than a stream can count. -/
  | lookaheadOutOfRange (medium : Medium)
  /-- The source could not be read. -/
  | readFailed (reason : Text)
  /-- The source gave up for a reason other than a failed read. -/
  | sourceFailed (reason : Text)
  /-- The records after this line could not be read. -/
  | recordsLost (source : Text) (line : Nat)
  /-- A paragraph cannot hold the value. -/
  | unwritable (cause : Unwritable)
  /-- An argument of the command line is refused. -/
  | badArgument (cause : Error)
  deriving DecidableEq, Repr

/-- A failure to read a source to its end. -/
def Error.isReadFailure : Error → Bool
  | .lineTooLong .. | .corruptData .. | .damaged .. | .cannotOpen .. | .readFailed ..
  | .recordsLost .. => true
  | _ => false

/-! ### Wording -/

def Malformed.message : Malformed → String
  | .number value => s!"Invalid unsigned integer '{value.str}'"
  | .status words value => s!"Expected 3 status tokens, got {words}: '{value.str}'"
  | .conffile words line => s!"Expected path and checksum, got {words} tokens: '{line.str}'"

def Damage.message : Damage → String
  | .badMagic lead => s!"Not a gzipped file ({Text.str (quotedOctets lead)})"
  | .unknownMethod => "Unknown compression method"
  | .badChecksum stored computed =>
    let stored := (Numeral.hexadecimal stored).str
    let computed := (Numeral.hexadecimal computed).str
    s!"CRC check failed {stored} != {computed}"
  | .badLength => "Incorrect length of data produced"
  | .endsEarly => "Compressed file ended before the end-of-stream marker was reached"
  | .badBlock reason => s!"Error -3 while decompressing data: {reason}"

def Unopenable.message : Unopenable → String
  | .noSuchFile => "[Errno 2] No such file or directory"
  | .isDirectory => "[Errno 21] Is a directory"
  | .nameTooLong => "[Errno 36] File name too long"

def Medium.outOfRangeMessage : Medium → String
  | .memory => "cannot fit 'int' into an index-sized integer"
  | .file => "Python int too large to convert to C ssize_t"

def Unwritable.message : Unwritable → String
  | .finalNewline => "value must not end in '\\n'"
  | .emptyLine => "value must not have blank lines"
  | .unindentedLine => "each line must start with whitespace"

def Error.message : Error → String
  | .malformed cause => cause.message
  | .tooManyDigits count =>
    s!"Exceeds the limit ({Numeral.digitLimit} digits) for integer string conversion: value has " ++
      s!"{count} digits; use sys.set_int_max_str_digits() to increase the limit"
  | .numberTooLong =>
    s!"Exceeds the limit ({Numeral.digitLimit} digits) for integer string conversion; " ++
      "use sys.set_int_max_str_digits() to increase the limit"
  | .unknownField name => s!"Unknown control field: {name.quoted.str}"
  | .unnamedArchitecture entry => s!"Architecture entry without a name: '{entry.str}'"
  | .badPriority name priority =>
    s!"Invalid priority for architecture '{name.str}': '{priority.str}'"
  | .notAnInteger setting value =>
    s!"{setting.variableName} must be an integer, got '{value.str}'"
  | .lineLimitNotPositive => "max_line_len: greater_than"
  | .noSuchWant code => s!"{code} is not a valid StateWant"
  | .noSuchStage code => s!"{code} is not a valid StateStatus"
  | .emptySeparator => "empty separator"
  | .sessionFinished =>
    "Parse session already finished; start a new one for the next record"
  | .lineTooLong line limit =>
    s!"Excessively long line at {line} (over {limit} characters). Corrupt file?"
  | .corruptData source line damage =>
    s!"{source.str}: corrupt or truncated data after line {line}: {damage.message}"
  | .damaged damage => damage.message
  | .cannotOpen cause path => s!"{cause.message}: {path.quoted.str}"
  | .nullInPath => "embedded null byte"
  | .lookaheadOutOfRange medium => medium.outOfRangeMessage
  | .readFailed reason => reason.str
  | .sourceFailed reason => reason.str
  | .recordsLost source line => s!"{source.str}: unable to read records past line {line}"
  | .unwritable cause => cause.message
  | .badArgument cause => cause.message

end ControlFile

import ControlFile.Octets.Gzip
import ControlFile.Octets.Utf8
import ControlFile.Source

/-!
# Files

A file is opened by its path. A path is a row of names with slashes between them; empty names and
single dots say nothing and are left out (`Path.normal`). A file whose name ends in `.gz` is
compressed, unless that is the whole name (`Path.isCompressed`). Where no file has a path,
`Path.openError` tells why not.

`Stream.ofFile` is the stream of a file: its octets, decompressed if need be, as text with unified
line ends. Damage to compressed data becomes the ending of the stream. Of the text before it, a
final carriage return is not delivered, because the line end might go on.
-/

namespace ControlFile

namespace Path

/-- The names of a path that say where to go. -/
def names (path : Text) : List Text := (path.splitOn '/').filter fun n => n ≠ [] && n ≠ ['.']

/-- The slashes that a path starts from. Two of them are a root of their own, any others are one. -/
def root (path : Text) : Text :=
  match path.takeWhile (· = '/') with
  | [] => []
  | ['/', '/'] => ['/', '/']
  | _ => ['/']

/-- The path without what says nothing. -/
def normal (path : Text) : Text :=
  match root path ++ Text.join ['/'] (names path) with
  | [] => ['.']
  | t => t

/-- The number of octets of a text in a path. -/
def octetCount (t : Text) : Nat := t.str.utf8ByteSize

/-- The greatest number of octets of a path. -/
def maxLength : Nat := 4095

/-- The greatest number of octets of a name. -/
def maxNameLength : Nat := 255

/-- Why no file has this path. -/
def openError (path : Text) : Error :=
  let path' := normal path
  if '\x00' ∈ path then .nullInPath
  else if maxLength < octetCount path' then .cannotOpen .nameTooLong path'
  -- A path whose names only lead upwards ends at a directory.
  else match (names path).dropWhile (· = ['.', '.']) with
    | [] => .cannotOpen .isDirectory path'
    | name :: _ =>
      .cannotOpen (if maxNameLength < octetCount name then .nameTooLong else .noSuchFile) path'

/-- The ending of a name from its last dot on. A dot at either end of the name starts none. -/
def suffix (name : Text) : Text :=
  match Text.cutLast? '.' name with
  | some (stem, ending) => if stem = [] || ending = [] then [] else '.' :: ending
  | none => []

/-- Whether a path is that of a compressed file. -/
def isCompressed (path : Text) : Bool :=
  match (names path).getLast? with
  | some name => suffix name = ".gz".toList
  | none => false

end Path

/-- How damage to compressed data ends its stream: data that breaks off or breaks the rules is
corrupt, and what the trailers and headers show is a failure of its own. -/
def Ending.ofDamage : Damage → Ending
  | .endsEarly => .corrupt .endsEarly
  | .badBlock reason => .corrupt (.badBlock reason)
  | damage => .failed (.damaged damage)

/-- The text without a carriage return at its end. -/
def dropFinalReturn (t : Text) : Text := if t.getLast? = some '\r' then t.dropLast else t

/-- The stream of a file's octets that are followed by this damage, if by any. -/
def Stream.ofOctets (octets : List UInt8) : Option Damage → Stream
  | none => { text := Octets.unifyNewlines (Octets.decode octets), medium := .file }
  | some damage =>
    { text := Octets.unifyNewlines (dropFinalReturn (Octets.decode octets))
      ending := .ofDamage damage
      medium := .file }

/-- The stream of the file with this path and these octets. -/
def Stream.ofFile (path : Text) (octets : List UInt8) : Stream :=
  if Path.isCompressed path then
    let (octets, damage?) := Gzip.decode octets
    .ofOctets octets damage?
  else .ofOctets octets none

end ControlFile

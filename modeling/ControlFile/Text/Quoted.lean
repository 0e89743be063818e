import ControlFile.Text.Printable

/-!
# Quoted texts

How a message shows a text that it cannot take at its word: between quotes, with the quote chosen
so that few characters need an escape, and with an escape for the backslash and for everything that
is not printable. `Text.quoted` writes one, `quoteOf` chooses the quote, `escapeChar` writes one
character. A run of octets is quoted in the same manner, with a leading `b` (`quotedOctets`).
-/

namespace ControlFile

/-- The last `width` hexadecimal digits of a number, in lower case. -/
def hexDigits (width n : Nat) : Text :=
  (List.range width).reverse.map fun place => (n >>> (4 * place) % 16).digitChar

/-- The quote around a text: a single quote, or a double quote if the text holds single quotes and
no double quote. -/
def quoteOf (t : Text) : Char :=
  if t.contains '\'' && !t.contains '"' then '"' else '\''

/-- One character between the quotes `quote`. The quote itself and the backslash follow a backslash,
the tabulator and the line ends have names, and a character that is not printable is a number of
two, four or eight digits, whichever is the first to fit. -/
def escapeChar (quote c : Char) : Text :=
  if c = quote || c = '\\' then ['\\', c]
  else if c = '\n' then ['\\', 'n']
  else if c = '\r' then ['\\', 'r']
  else if c = '\t' then ['\\', 't']
  else if isPrintable c then [c]
  else if c.toNat < 0x100 then '\\' :: 'x' :: hexDigits 2 c.toNat
  else if c.toNat < 0x10000 then '\\' :: 'u' :: hexDigits 4 c.toNat
  else '\\' :: 'U' :: hexDigits 8 c.toNat

/-- The text between quotes. -/
def Text.quoted (t : Text) : Text :=
  quoteOf t :: t.flatMap (escapeChar (quoteOf t)) ++ [quoteOf t]

/-- One octet between quotes: as the character of ASCII if it is a printable one, otherwise as a
number. -/
def escapeOctet (quote : Char) (octet : UInt8) : Text :=
  if octet.toNat < 0x80 then escapeChar quote (Char.ofNat octet.toNat)
  else '\\' :: 'x' :: hexDigits 2 octet.toNat

/-- A run of octets between quotes. -/
def quotedOctets (octets : List UInt8) : Text :=
  let quote := quoteOf (octets.map fun octet => Char.ofNat octet.toNat)
  'b' :: quote :: octets.flatMap (escapeOctet quote) ++ [quote]

end ControlFile

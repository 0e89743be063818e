/-!
# Checksums

The cyclic checksum of 32 bits that compressed files carry. The octets are read as a polynomial over
two elements, the lowest bit of each octet first; the checksum is the remainder of its division by
`Checksum.polynomial`, started from ones and complemented at the end.
-/

namespace ControlFile.Checksum

/-- The divisor, without its highest term, the lowest term in the highest bit. -/
def polynomial : UInt32 := 0xEDB88320

/-- One step of the division. -/
def shift (c : UInt32) : UInt32 := if c &&& 1 = 1 then (c >>> 1) ^^^ polynomial else c >>> 1

/-- The division after one more octet. -/
def addOctet (c : UInt32) (octet : UInt8) : UInt32 :=
  shift (shift (shift (shift (shift (shift (shift (shift (c ^^^ octet.toUInt32))))))))

/-- The checksum of octets. -/
def ofOctets (octets : Array UInt8) : UInt32 := octets.foldl addOctet 0xFFFFFFFF ^^^ 0xFFFFFFFF

end ControlFile.Checksum

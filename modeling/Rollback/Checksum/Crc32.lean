/-!
# CRC-32

The cyclic redundancy check with the reversed polynomial `0xEDB88320`, initial value and final mask
all ones.
-/

set_option autoImplicit false

namespace Rollback.Checksum

/-- One step of the division, for the lowest bit of the register. -/
def shiftBit (r : UInt32) : UInt32 :=
  if r &&& 1 == 1 then (r >>> 1) ^^^ 0xEDB88320 else r >>> 1

/-- The register after one byte. -/
def feed (r : UInt32) (byte : UInt8) : UInt32 :=
  (List.range 8).foldl (fun r _ => shiftBit r) (r ^^^ byte.toUInt32)

/-- The checksum of a sequence of bytes. -/
def crc32 (bytes : List UInt8) : UInt32 :=
  bytes.foldl feed 0xFFFFFFFF ^^^ 0xFFFFFFFF

end Rollback.Checksum

namespace String

/-- The checksum of the text in UTF-8. -/
def crc32 (s : String) : UInt32 :=
  Rollback.Checksum.crc32 s.toUTF8.toList

end String

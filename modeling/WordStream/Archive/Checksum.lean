import WordStream.Bytes

/-!
# Checksums

The cyclic redundancy check of archive members: the remainder of the reflected polynomial
`0xEDB88320`, with all bits turned over before and after. A checksum is taken piece by piece.
-/

set_option autoImplicit false

namespace WordStream.Archive

/-- A checksum in the making: the remainder that the bytes so far leave. -/
structure Checksum where
  remainder : UInt32 := 0xFFFFFFFF
deriving DecidableEq, Repr

namespace Checksum

/-- Divides the lowest bits of a remainder off, as many as told. -/
def reduceBits : (count : Nat) → UInt32 → UInt32
  | 0, remainder => remainder
  | count + 1, remainder =>
      reduceBits count
        (if remainder &&& 1 = 1 then (remainder >>> 1) ^^^ 0xEDB88320 else remainder >>> 1)

def addByte (remainder : UInt32) (byte : UInt8) : UInt32 :=
  reduceBits 8 (remainder ^^^ byte.toUInt32)

def add (checksum : Checksum) (bytes : ByteArray) : Checksum :=
  { remainder := bytes.foldl addByte checksum.remainder }

def value (checksum : Checksum) : Nat :=
  (checksum.remainder ^^^ 0xFFFFFFFF).toNat

/-- A checksum is taken byte by byte. -/
theorem remainder_add (checksum : Checksum) (bytes : ByteArray) :
    (checksum.add bytes).remainder = bytes.data.toList.foldl addByte checksum.remainder :=
  Bytes.foldl_eq_foldl_toList ..

end Checksum

end WordStream.Archive

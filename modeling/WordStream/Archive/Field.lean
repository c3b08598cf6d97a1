/-!
# Fields of binary records

Numbers in archives are stored with the lowest byte first.
-/

set_option autoImplicit false

namespace WordStream.Archive

/-- The byte at a position; zero past the end. -/
def byteAt (bytes : ByteArray) (position : Nat) : Nat :=
  if inside : position < bytes.size then (bytes[position]).toNat else 0

def numberAt (bytes : ByteArray) : (count position : Nat) → Nat
  | 0, _ => 0
  | count + 1, position => byteAt bytes position + 256 * numberAt bytes count (position + 1)

def marksAt (bytes : ByteArray) : (position : Nat) → (mark : List UInt8) → Bool
  | _, [] => true
  | position, first :: others =>
      (if inside : position < bytes.size then bytes[position] == first else false) &&
        marksAt bytes (position + 1) others

/-- The last of the positions below a bound, down to a lowest one, at which a mark stands. -/
def lastMark? (bytes : ByteArray) (mark : List UInt8) (lowest : Nat) : (bound : Nat) → Option Nat
  | 0 => none
  | position + 1 =>
      if position < lowest then none
      else if marksAt bytes position mark then some position
      else lastMark? bytes mark lowest position

end WordStream.Archive

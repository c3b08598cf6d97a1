/-!
# Numbers in floating point

A number in floating point is a whole number times a power of two. Some stand for no number, or for
one beyond all bounds.
-/

set_option autoImplicit false

namespace WordStream

inductive Floating where
  | finite (mantissa exponent : Int)
  /-- Beyond all numbers, or none at all. -/
  | unbounded
deriving DecidableEq, Repr

namespace Floating

def whole? : Floating → Option Int
  | unbounded => none
  | finite mantissa exponent =>
      match exponent with
      | .ofNat power => some (mantissa * (Nat.pow 2 power : Nat))
      | .negSucc power =>
          let divisor : Int := (Nat.pow 2 (power + 1) : Nat)
          if mantissa % divisor = 0 then some (mantissa / divisor) else none

def isZero : Floating → Bool
  | unbounded => false
  | finite mantissa _ => mantissa == 0

end Floating

end WordStream

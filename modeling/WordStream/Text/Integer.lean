import WordStream.Text.Blank
import WordStream.Text.DecimalDigit

/-!
# Written integers

An integer is written as an optional sign and decimal digits of any script, with single
underscores allowed between two digits and white space allowed around the whole.
-/

set_option autoImplicit false

namespace WordStream.Text

/-- The most digits a written integer may have; underscores do not count. -/
def maxIntegerDigits : Nat := 4300

/-- The values of the digits that may follow a digit, each after an optional underscore. -/
def followingDigitValues? : List Char → Option (List Nat)
  | [] => some []
  | '_' :: character :: rest => do
      return (← digitValue? character) :: (← followingDigitValues? rest)
  | character :: rest => do
      return (← digitValue? character) :: (← followingDigitValues? rest)

/-- The values of the digits of a nonempty character list in which single underscores may
separate two digits. -/
def digitValues? : List Char → Option (List Nat)
  | [] => none
  | character :: rest => do
      return (← digitValue? character) :: (← followingDigitValues? rest)

/-- The number that a list of digit values stands for, the most significant digit first. -/
def ofDigitValues (values : List Nat) : Nat :=
  values.foldl (fun number value => 10 * number + value) 0

/-- Splits a leading sign off; the flag tells whether it was a minus. -/
def splitSign : List Char → Bool × List Char
  | '-' :: rest => (true, rest)
  | '+' :: rest => (false, rest)
  | characters => (false, characters)

/-- Reads an integer, which may be surrounded by white space. The information separators do not
count as white space here. -/
def readInteger? (text : String) : Option Int := do
  let (negative, digits) := splitSign (trimWhere isWhiteSpace text.toList)
  let values ← digitValues? digits
  guard (values.length ≤ maxIntegerDigits)
  let magnitude := ofDigitValues values
  return if negative then -(magnitude : Int) else magnitude

end WordStream.Text

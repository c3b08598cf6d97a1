import WordStream.Date.Calendar

/-!
# Time stamps

A time stamp is a calendar day, a time of day to the microsecond, and an offset from universal
time. It has two written forms: the full form, which keeps the offset to the microsecond, and
the exchange form, which writes `Z` for no offset and otherwise hours and minutes only.
-/

set_option autoImplicit false

namespace WordStream.Date

def microsecondsInDay : Nat := 86400000000

structure Clock where
  hour : Nat
  minute : Nat
  second : Nat
  microsecond : Nat
  hour_lt : hour < 24
  minute_lt : minute < 60
  second_lt : second < 60
  microsecond_lt : microsecond < 1000000
deriving DecidableEq, Repr

/-- The time of day with the given fields, if each is in its range. -/
def Clock.of? (hour minute second microsecond : Nat) : Option Clock :=
  if bounds : hour < 24 ∧ minute < 60 ∧ second < 60 ∧ microsecond < 1000000 then
    some ⟨hour, minute, second, microsecond, bounds.1, bounds.2.1, bounds.2.2.1, bounds.2.2.2⟩
  else none

/-- An offset from universal time in microseconds, less than 24 hours to either side. -/
structure Offset where
  microseconds : Int
  natAbs_lt : microseconds.natAbs < microsecondsInDay
deriving DecidableEq, Repr

namespace Offset

def utc : Offset := ⟨0, by decide⟩

/-- The offset of a number of microseconds, if it is short enough. -/
def of? (microseconds : Int) : Option Offset :=
  if bound : microseconds.natAbs < microsecondsInDay then some ⟨microseconds, bound⟩ else none

end Offset

/-- A day, a time of day and an offset from universal time. -/
structure Stamp where
  day : Day
  clock : Clock
  offset : Offset
deriving DecidableEq, Repr

/-- Writes the last decimal digits of a number, as many as asked for. -/
def writeDigits : (count number : Nat) → List Char
  | 0, _ => []
  | count + 1, number => writeDigits count (number / 10) ++ [Nat.digitChar (number % 10)]

/-- A microsecond count as a six-digit fraction; nothing for zero. -/
def writeFraction (microseconds : Nat) : List Char :=
  if microseconds = 0 then [] else '.' :: writeDigits 6 microseconds

namespace Offset

/-- The sign of an offset; no offset counts as positive. -/
def sign (offset : Offset) : Char :=
  if offset.microseconds < 0 then '-' else '+'

/-- The full form of an offset: sign, hours and minutes, and seconds and fraction where they are
not zero. -/
def write (offset : Offset) : List Char :=
  let size := offset.microseconds.natAbs
  let seconds := size / 1000000
  offset.sign :: writeDigits 2 (seconds / 3600) ++ ':' :: writeDigits 2 (seconds / 60 % 60) ++
    if size % 60000000 = 0 then []
    else ':' :: writeDigits 2 (seconds % 60) ++ writeFraction (size % 1000000)

/-- The whole seconds nearest to an offset, the farther ones from none where two are as near. -/
def nearestSeconds (offset : Offset) : Nat :=
  (offset.microseconds.natAbs + 500000) / 1000000

/-- The exchange form of an offset. The nearest whole seconds decide: none are written `Z`, and
others as sign, hours and minutes. -/
def writeExchange (offset : Offset) : List Char :=
  let seconds := offset.nearestSeconds
  if seconds = 0 then ['Z']
  else
    offset.sign :: writeDigits 2 (seconds / 3600) ++ ':' :: writeDigits 2 (seconds / 60 % 60)

end Offset

namespace Stamp

/-- Day and time of day, with `T` between them. -/
def writeLocal (stamp : Stamp) : List Char :=
  writeDigits 4 stamp.day.year ++ '-' :: writeDigits 2 stamp.day.month ++
    '-' :: writeDigits 2 stamp.day.day ++ 'T' :: writeDigits 2 stamp.clock.hour ++
    ':' :: writeDigits 2 stamp.clock.minute ++ ':' :: writeDigits 2 stamp.clock.second ++
    writeFraction stamp.clock.microsecond

def full (stamp : Stamp) : String :=
  String.ofList (stamp.writeLocal ++ stamp.offset.write)

def exchange (stamp : Stamp) : String :=
  String.ofList (stamp.writeLocal ++ stamp.offset.writeExchange)

end Stamp

@[simp]
theorem length_writeDigits (count number : Nat) : (writeDigits count number).length = count := by
  induction count generalizing number with
  | zero => rfl
  | succ count ih => simp [writeDigits, ih]

end WordStream.Date

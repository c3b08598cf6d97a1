import WordStream.Date.Stamp
import WordStream.Text.Blank

/-!
# Reading time stamps

Time stamps are read from the UTF-8 bytes of a text, in which a zero byte stands past the end.
The day comes first, in one of the forms `YYYY-MM-DD`, `YYYYMMDD`, `YYYY-Www-D`, `YYYYWwwD`,
`YYYY-Www` and `YYYYWww`. Any one character separates it from the time, which is a clock reading
of one to three two-digit fields with an optional fraction, and an optional offset.
-/

set_option autoImplicit false

namespace WordStream.Date

def ascii (character : Char) : UInt8 := character.toNat.toUInt8

def digit? (byte : UInt8) : Option Nat :=
  if ascii '0' ≤ byte && byte ≤ ascii '9' then some (byte.toNat - 48) else none

def isDigit (byte : UInt8) : Bool := (digit? byte).isSome

def readNumber? : (count number : Nat) → List UInt8 → Option (Nat × List UInt8)
  | 0, number, bytes => some (number, bytes)
  | _ + 1, _, [] => none
  | count + 1, number, byte :: rest => do
      readNumber? count (10 * number + (← digit? byte)) rest

/-- The byte at a position; zero past the end. -/
def byteAt (bytes : List UInt8) (position : Nat) : UInt8 :=
  bytes[position]?.getD 0

/-- Reads the dash between two fields if the fields before it were separated by one. -/
def readDash? (separated : Bool) (bytes : List UInt8) : Option (List UInt8) :=
  if separated then
    match bytes with
    | byte :: rest => if byte = ascii '-' then some rest else none
    | [] => none
  else some bytes

/-- Where the day ends. Only the bytes from the fifth on and the length tell its form; a dash
after a week is the separator of a time if a digit follows two bytes later. -/
def dayLength? (bytes : List UInt8) : Option Nat :=
  let length := bytes.length
  if length = 7 then some 7
  else if byteAt bytes 4 = ascii '-' then
    if byteAt bytes 5 = ascii 'W' then
      if byteAt bytes 8 = ascii '-' then
        if length = 9 then none
        else if 10 < length && isDigit (byteAt bytes 10) then some 8
        else some 10
      else some 8
    else some 10
  else if byteAt bytes 4 = ascii 'W' then
    let digitsEnd := 7 + ((bytes.drop 7).takeWhile isDigit).length
    if digitsEnd < 9 then some digitsEnd
    else if digitsEnd % 2 = 0 then some 7
    else some 8
  else some 8

/-- Reads a day that takes the given number of bytes. A week without a weekday means its
Monday. -/
def readDay? (length : Nat) (bytes : List UInt8) : Option Day := do
  let (year, afterYear) ← readNumber? 4 0 bytes
  let separated := afterYear.head? == some (ascii '-')
  let fields := if separated then afterYear.tail else afterYear
  if fields.head? = some (ascii 'W') then
    let (week, afterWeek) ← readNumber? 2 0 fields.tail
    if bytes.length - afterWeek.length < length then
      let (weekday, _) ← readNumber? 1 0 (← readDash? separated afterWeek)
      Day.ofWeek? year week weekday
    else Day.ofWeek? year week 1
  else
    let (month, afterMonth) ← readNumber? 2 0 fields
    let (day, _) ← readNumber? 2 0 (← readDash? separated afterMonth)
    Day.of? year month day

/-- The two-digit fields of a clock reading and its microseconds. `leftover` tells whether
something other than the end of the text follows the reading. -/
structure ClockReading where
  fields : List Nat
  microsecond : Nat := 0
  leftover : Bool

/-- Reads the fraction of a clock reading: up to six digits count, and further digits are passed
over. -/
def readFraction? (limit : Nat) (bytes : List UInt8) : Option (Nat × Bool) := do
  let count := min 6 limit
  let (digits, rest) ← readNumber? count 0 bytes
  let after := rest.dropWhile isDigit
  return ((6 - count).repeat (10 * ·) digits, byteAt after 0 != 0)

/-- Reads a clock reading of at most so many two-digit fields from the first `limit` bytes. The
byte after a field is looked at even past the limit. A colon after the first field makes colons
the separator of all fields; without it the fields follow each other directly. -/
def readClock? (fields : Nat) (separated? : Option Bool) (limit : Nat) (bytes : List UInt8) :
    Option ClockReading :=
  match fields with
  | 0 => do
      let (microsecond, leftover) ← readFraction? limit bytes
      return { fields := [], microsecond, leftover }
  | fields + 1 => do
      let (field, rest) ← readNumber? 2 0 bytes
      let mark := byteAt rest 0
      let separated := separated?.getD (mark == ascii ':')
      if limit ≤ 3 then
        return { fields := [field], leftover := mark != 0 }
      else if separated && mark == ascii ':' then
        let later ← readClock? fields (some separated) (limit - 3) rest.tail
        return { later with fields := field :: later.fields }
      else if mark == ascii '.' || mark == ascii ',' then
        let (microsecond, leftover) ← readFraction? (limit - 3) rest.tail
        return { fields := [field], microsecond, leftover }
      else if separated then none
      else
        let later ← readClock? fields (some separated) (limit - 2) rest
        return { later with fields := field :: later.fields }

namespace ClockReading

/-- A field of a reading; zero if the reading ends before it. -/
def field (reading : ClockReading) (index : Nat) : Nat := reading.fields[index]?.getD 0

def clock? (reading : ClockReading) : Option Clock :=
  Clock.of? (reading.field 0) (reading.field 1) (reading.field 2) reading.microsecond

/-- The offset that a reading gives after its sign. Offsets of no whole second are none at
all. -/
def offset? (reading : ClockReading) (negative : Bool) : Option Offset :=
  let seconds := reading.field 0 * 3600 + reading.field 1 * 60 + reading.field 2
  if seconds = 0 then some Offset.utc
  else
    let size : Int := (seconds * 1000000 + reading.microsecond : Nat)
    Offset.of? (if negative then -size else size)

end ClockReading

def beginsOffset (byte : UInt8) : Bool :=
  byte == ascii '+' || byte == ascii '-' || byte == ascii 'Z'

/-- Reads a time of day and an offset. Without an offset nothing may follow the clock reading;
before an offset anything may. -/
def readTime? (bytes : List UInt8) : Option (Clock × Offset) := do
  let clockBytes := (bytes.takeWhile (!beginsOffset ·)).length
  let reading ← readClock? 3 none clockBytes bytes
  match bytes.drop clockBytes with
  | [] =>
      guard (!reading.leftover)
      return (← reading.clock?, Offset.utc)
  | mark :: rest =>
      if mark = ascii 'Z' then
        guard (byteAt rest 0 == 0)
        return (← reading.clock?, Offset.utc)
      else
        let shift ← readClock? 3 none rest.length rest
        guard (!shift.leftover)
        return (← reading.clock?, ← shift.offset? (mark = ascii '-'))

/-- The bytes of a UTF-8 character that begins with the given byte. -/
def characterSize (byte : UInt8) : Nat :=
  if byte < 0x80 then 1
  else if byte &&& 0xF0 = 0xE0 then 3
  else if byte &&& 0xF0 = 0xF0 then 4
  else 2

namespace Stamp

/-- Reads a time stamp of at least seven characters. A day alone means its midnight in universal
time. -/
def ofText? (text : String) : Option Stamp := do
  guard (7 ≤ text.length)
  let bytes := text.toUTF8.data.toList
  let length ← dayLength? bytes
  let day ← readDay? length bytes
  match bytes.drop length with
  | [] => return ⟨day, ← Clock.of? 0 0 0 0, Offset.utc⟩
  | separator :: _ =>
      let (clock, offset) ← readTime? (bytes.drop (length + characterSize separator))
      return ⟨day, clock, offset⟩

end Stamp

/-- Writes a final `Z` of either case as the offset it stands for. -/
def expandZulu (text : String) : String :=
  match text.toList.reverse with
  | 'Z' :: rest | 'z' :: rest => String.ofList (rest.reverse ++ "+00:00".toList)
  | _ => text

/-- Reads the date of an edit: a time stamp with blank characters around it, in which a final `z`
may stand for `Z`. -/
def readEditDate? (text : String) : Option Stamp :=
  Stamp.ofText? (expandZulu (Text.trim text))

end WordStream.Date

import WordStream.Bytes

/-!
# Base64

Bytes are written as groups of four characters for three bytes each, and a shorter last group is
filled up with equals signs. The reader takes no other character before, between or after; it
ignores the bits that a last group has too many, and any number of equals signs after a full one.
-/

set_option autoImplicit false

namespace WordStream.Input.Base64

/-- The value of a character, which is given by its byte. Bytes that no ASCII character has stand
for nothing. -/
def sextet? (byte : UInt8) : Option Nat :=
  let code := byte.toNat
  if 65 ≤ code ∧ code ≤ 90 then some (code - 65)
  else if 97 ≤ code ∧ code ≤ 122 then some (code - 71)
  else if 48 ≤ code ∧ code ≤ 57 then some (code + 4)
  else if code = 43 then some 62
  else if code = 47 then some 63
  else none

def character (value : Nat) : Char :=
  if value < 26 then Char.ofNat (value + 65)
  else if value < 52 then Char.ofNat (value + 71)
  else if value < 62 then Char.ofNat (value - 4)
  else if value = 62 then '+'
  else '/'

/-- The characters of bytes, after those written so far, which are held in reverse. -/
def writeAfter (done : List Char) : List UInt8 → List Char
  | [] => done.reverse
  | [first] =>
      ('=' :: '=' :: character (first.toNat % 4 * 16) :: character (first.toNat / 4) ::
        done).reverse
  | [first, second] =>
      ('=' :: character (second.toNat % 16 * 4) ::
        character (first.toNat % 4 * 16 + second.toNat / 16) :: character (first.toNat / 4) ::
          done).reverse
  | first :: second :: third :: rest =>
      writeAfter
        (character (third.toNat % 64) :: character (second.toNat % 16 * 4 + third.toNat / 64) ::
          character (first.toNat % 4 * 16 + second.toNat / 16) :: character (first.toNat / 4) ::
            done)
        rest

structure Reading where
  output : ByteArray := .empty
  /-- The number of characters read of the last group; less than four. -/
  count : Nat := 0
  /-- The bits of the last group that no byte has taken. -/
  pending : Nat := 0
  padding : Nat := 0
  /-- Whether some character may not stand where it does. -/
  spoilt : Bool := false

namespace Reading

/-- Takes the value of one more character. A byte is given as soon as it is whole. -/
def addValue (reading : Reading) (value : Nat) : Reading :=
  match reading.count with
  | 0 => { reading with count := 1, pending := value }
  | 1 =>
      { reading with
        count := 2, pending := value % 16
        output := reading.output.push (reading.pending * 4 + value / 16).toUInt8 }
  | 2 =>
      { reading with
        count := 3, pending := value % 4
        output := reading.output.push (reading.pending * 16 + value / 4).toUInt8 }
  | _ =>
      { reading with
        count := 0, pending := 0
        output := reading.output.push (reading.pending * 64 + value).toUInt8 }

def add (reading : Reading) (byte : UInt8) : Reading :=
  if byte.toNat = 61 then { reading with padding := reading.padding + 1 }
  else
    match sextet? byte with
    | some value =>
        if reading.padding = 0 then reading.addValue value else { reading with spoilt := true }
    | none => { reading with spoilt := true }

/-- Whether the equals signs fill the last group up. After a full group there may be any number of
them, but not instead of one. -/
def isFilled (reading : Reading) : Bool :=
  match reading.count with
  | 0 => reading.padding = 0 || 0 < reading.output.size
  | 1 => false
  | 2 => reading.padding = 2
  | _ => reading.padding = 1

def finish (reading : Reading) : Option ByteArray :=
  if !reading.spoilt && reading.isFilled then some reading.output else none

end Reading

def read? (text : String) : Option ByteArray :=
  (text.toUTF8.foldl Reading.add {}).finish

def write (bytes : ByteArray) : String :=
  String.ofList (writeAfter [] bytes.data.toList)

/-- A text is read byte by byte. -/
theorem read?_eq (text : String) :
    read? text = (text.toUTF8.data.toList.foldl Reading.add {}).finish := by
  rw [read?, Bytes.foldl_eq_foldl_toList]

end WordStream.Input.Base64

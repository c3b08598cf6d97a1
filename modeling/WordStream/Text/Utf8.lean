import WordStream.Text.Quoted

/-!
# Faults of UTF-8

Where bytes that are not UTF-8 go wrong, and how messages word it.
-/

set_option autoImplicit false

namespace WordStream.Text

/-- Why bytes are no character. -/
inductive Utf8Reason where
  /-- No character begins with the first byte. -/
  | badStart
  /-- A byte does not carry the character on. -/
  | badContinuation
  | earlyEnd
deriving DecidableEq, Repr

def Utf8Reason.message : Utf8Reason → String
  | badStart => "invalid start byte"
  | badContinuation => "invalid continuation byte"
  | earlyEnd => "unexpected end of data"

/-- The first bytes that are no character: their place, the first of them, how many more there are,
and the reason. -/
structure Utf8Fault where
  place : Nat
  first : UInt8
  others : Nat
  reason : Utf8Reason
deriving DecidableEq, Repr

namespace Utf8Fault

def message (fault : Utf8Fault) : String :=
  let bytes :=
    if fault.others = 0 then
      "byte 0x" ++ String.ofList (hexDigits 2 fault.first.toNat) ++ " in position " ++
        toString fault.place
    else
      "bytes in position " ++ toString fault.place ++ "-" ++ toString (fault.place + fault.others)
  "'utf-8' codec can't decode " ++ bytes ++ ": " ++ fault.reason.message

/-- The number of bytes that carry on a character with a first byte. -/
def continuations? (first : UInt8) : Option Nat :=
  if first < 0x80 then some 0
  else if first < 0xC2 then none
  else if first < 0xE0 then some 1
  else if first < 0xF0 then some 2
  else if first < 0xF5 then some 3
  else none

def isContinuation (byte : UInt8) : Bool := 0x80 ≤ byte && byte < 0xC0

/-- Whether a byte may be the second one after a first byte. -/
def maySecond (first second : UInt8) : Bool :=
  isContinuation second &&
    (first != 0xE0 || 0xA0 ≤ second) && (first != 0xED || second < 0xA0) &&
    (first != 0xF0 || 0x90 ≤ second) && (first != 0xF4 || second < 0x90)

def carried (first : UInt8) : List UInt8 → Nat
  | [] => 0
  | second :: others =>
      if maySecond first second then 1 + (others.takeWhile isContinuation).length else 0

/-- Finds the first fault from a place on, after as many bytes as still belong to a character. -/
def find? (place : Nat) : (skipped : Nat) → List UInt8 → Option Utf8Fault
  | _, [] => none
  | skipped + 1, _ :: rest => find? (place + 1) skipped rest
  | 0, first :: rest =>
      match continuations? first with
      | none => some { place, first, others := 0, reason := .badStart }
      | some count =>
          let followers := rest.take count
          let others := carried first followers
          if others = count then find? (place + 1) count rest
          else
            some
              { place, first, others
                reason := if others = followers.length then .earlyEnd else .badContinuation }

end Utf8Fault

/-- Reads UTF-8, or tells where it goes wrong. -/
def readUtf8 (bytes : ByteArray) : Except Utf8Fault String :=
  match String.fromUTF8? bytes with
  | some text => .ok text
  | none =>
      .error ((Utf8Fault.find? 0 0 bytes.data.toList).getD
        { place := 0, first := 0, others := 0, reason := .badStart })

end WordStream.Text

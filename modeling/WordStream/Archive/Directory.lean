import WordStream.Archive.CodePage
import WordStream.Archive.Fault
import WordStream.Bytes

/-!
# Directories of archives

An archive ends with a record of where its directory is, after which only a comment may come. The
directory lists the members. What stands before the first member is passed over, and moves all
places that the directory gives.
-/

set_option autoImplicit false

namespace WordStream.Archive

/-- A member as the directory lists it. -/
structure Entry where
  listedName : String
  flags : Nat
  method : Nat
  checksum : Nat
  packedSize : Nat
  size : Nat
  /-- Where the member begins. -/
  place : Int
deriving DecidableEq, Repr

/-- The name of a member, which ends before a zero character. -/
def Entry.name (entry : Entry) : String :=
  String.ofList (entry.listedName.toList.takeWhile fun character => character.toNat != 0)

/-- The text of a name, in UTF-8 if a flag marks it. -/
def readName (flags : Nat) (bytes : ByteArray) : Except Fault String :=
  if flags.testBit 11 then
    (Text.readUtf8 bytes).mapError .undecodableName
  else .ok (readCodePage bytes)

/-- The greatest number of four bytes, in whose place an extra field gives a longer number. -/
def overflow : Nat := 0xFFFFFFFF

/-- Replaces a number that overflowed by the next of the longer numbers, and gives the place after
it. -/
def longer? (extra : ByteArray) (bound place : Nat) (overflowed : Bool) (number : Nat) :
    Except Fault (Nat × Nat) :=
  if overflowed then
    if place + 8 ≤ bound then .ok (numberAt extra 8 place, place + 8) else .error .unreadable
  else .ok (number, place)

/-- Reads the extra fields of an entry, in which longer numbers may be given. -/
def readExtra (extra : ByteArray) : (rounds place : Nat) → Entry → Except Fault Entry
  | 0, _, entry => .ok entry
  | rounds + 1, place, entry => do
      if extra.size < place + 4 then return entry
      let length := numberAt extra 2 (place + 2)
      let next := place + 4 + length
      if extra.size < next then throw .unreadable
      if numberAt extra 2 place ≠ 1 then readExtra extra rounds next entry
      else
        let (size, place) ←
          longer? extra next (place + 4)
            (entry.size == overflow || entry.size == 0xFFFFFFFFFFFFFFFF) entry.size
        let (packedSize, place) ←
          longer? extra next place (entry.packedSize == overflow) entry.packedSize
        let (begin, _) ← longer? extra next place (entry.place == overflow) entry.place.toNat
        readExtra extra rounds next { entry with size, packedSize, place := begin }

/-- The greatest version of the format that is known, in tenths. -/
def knownVersion : Nat := 63

/-- The size of an entry without its name, extra fields and comment. -/
def entrySize : Nat := 46

/-- Reads the entry at a place of the directory. All places of members are moved by a shift. -/
def readEntry (directory : ByteArray) (shift : Int) (place : Nat) : Except Fault Entry := do
  let field := fun count offset => numberAt directory count (place + offset)
  if directory.size < place + entrySize then throw .unreadable
  if !marksAt directory place [0x50, 0x4B, 0x01, 0x02] then throw .unreadable
  let flags := field 2 8
  let afterName := place + entrySize + field 2 28
  let listedName ← readName flags (directory.extract (place + entrySize) afterName)
  if knownVersion < field 1 6 then throw (.newerVersion (field 1 6))
  let extra := directory.extract afterName (afterName + field 2 30)
  let entry : Entry :=
    { listedName, flags
      method := field 2 10
      checksum := field 4 16
      packedSize := field 4 20
      size := field 4 24
      place := field 4 42 }
  let entry ← readExtra extra (extra.size + 1) 0 entry
  return { entry with place := entry.place + shift }

def entryLength (directory : ByteArray) (place : Nat) : Nat :=
  entrySize + numberAt directory 2 (place + 28) + numberAt directory 2 (place + 30) +
    numberAt directory 2 (place + 32)

def readEntries (directory : ByteArray) (size : Nat) (shift : Int) :
    (rounds place : Nat) → (done : List Entry) → Except Fault (List Entry)
  | 0, _, done => .ok done.reverse
  | rounds + 1, place, done => do
      if size ≤ place then return done.reverse
      else
        let entry ← readEntry directory shift place
        readEntries directory size shift rounds (place + entryLength directory place)
          (entry :: done)

/-- Where the directory of an archive is. -/
structure Location where
  size : Nat
  start : Nat
  /-- How far all places are moved by what stands before the first member. -/
  shift : Int
deriving DecidableEq, Repr

/-- The size of the end record without its comment. -/
def endRecordSize : Nat := 22

/-- Where the end record is: at the very end, or else the last place that looks like one and is near
enough to the end. -/
def endRecord? (bytes : ByteArray) : Option Nat :=
  let mark := [0x50, 0x4B, 0x05, 0x06]
  let last := bytes.size - endRecordSize
  if endRecordSize ≤ bytes.size && marksAt bytes last mark && numberAt bytes 2 (last + 20) = 0 then
    some last
  else
    (lastMark? bytes mark (bytes.size - 0x10000 - endRecordSize) bytes.size).filter fun place =>
      place + endRecordSize ≤ bytes.size

/-- Where the directory is, from its size and nominal place and the place at which it ends. -/
def locationOf (size nominal stop : Nat) : Except Fault Location :=
  if size ≤ stop then
    let start := stop - size
    .ok { size, start, shift := (start : Int) - nominal }
  else .error .unreadable

/-- Where the directory is. A record for long archives may stand before the end record and overrule
it. -/
def locate (bytes : ByteArray) : Except Fault Location :=
  match endRecord? bytes with
  | none => .error .unreadable
  | some last =>
      let locator := last - 20
      let record := last - 76
      let short := locationOf (numberAt bytes 4 (last + 12)) (numberAt bytes 4 (last + 16)) last
      if !(locator + 20 ≤ bytes.size && marksAt bytes locator [0x50, 0x4B, 0x06, 0x07]) then short
      else if numberAt bytes 4 (locator + 4) ≠ 0 || 1 < numberAt bytes 4 (locator + 16) then
        .error .unreadable
      else if !(record + 56 ≤ bytes.size && marksAt bytes record [0x50, 0x4B, 0x06, 0x06]) then
        short
      else if last < 76 then .error .unreadable
      else locationOf (numberAt bytes 8 (record + 40)) (numberAt bytes 8 (record + 48)) record

end WordStream.Archive

namespace WordStream

/-- An archive: its bytes, its members in the order of the directory, where the directory begins, and
what unpacks the data of members. -/
structure Archive where
  unpackers : Archive.Unpackers
  bytes : ByteArray
  entries : List Archive.Entry
  start : Nat

namespace Archive

def ofBytes (unpackers : Unpackers) (bytes : ByteArray) : Except Fault Archive := do
  let location ← locate bytes
  let directory := Bytes.slice bytes location.start (location.start + location.size)
  let entries ←
    readEntries directory location.size location.shift (location.size / entrySize + 1) 0 []
  return { unpackers, bytes, entries, start := location.start }

/-- The names of the members, in the order of the directory. -/
def names (archive : Archive) : List String :=
  archive.entries.map Entry.name

/-- The entry of a name. Of several entries with one name the last one holds. -/
def find? (archive : Archive) (name : String) : Option Entry :=
  archive.entries.reverse.find? fun entry => entry.name == name

/-- Where the data of a member that was found has to end: where the next member begins, or else the
directory. Of several members that begin at one place all but the one that is listed first have to
end there too. -/
def stop (archive : Archive) (entry : Entry) : Int :=
  let earlier := (archive.entries.reverse.dropWhile fun other => other.name != entry.name).tail
  if earlier.any fun other => other.place == entry.place then entry.place
  else
    ((archive.entries.map (·.place)).filter (entry.place < ·)).min?.getD archive.start

theorem isSome_find? {archive : Archive} {name : String} :
    (archive.find? name).isSome = true ↔ name ∈ archive.names := by
  simp [find?, names, List.find?_isSome]

end Archive

end WordStream

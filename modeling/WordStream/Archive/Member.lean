import WordStream.Archive.Checksum
import WordStream.Archive.Directory

/-!
# Members of archives

Reading a member takes two steps. Opening it checks what stands before its data. Then its data is
unpacked piece by piece, and the checksum is checked with the last piece.
-/

set_option autoImplicit false

namespace WordStream.Archive

/-- The size of what stands before a member, without name and extra fields. -/
def headerSize : Nat := 30

/-- The least number of which neither it nor its negative can be told in a word. -/
def wordBound : Nat := 0x8000000000000000

/-- A member that is open for reading. -/
structure Member where
  entry : Entry
  bytes : ByteArray
  /-- Where the packed data goes on that was not yet taken. -/
  place : Nat
  /-- The number of packed bytes that were not yet taken. -/
  packedLeft : Nat
  /-- The number of bytes that were not yet given. -/
  left : Nat
  unpacking : Unpacking
  checksum : Checksum := {}
  finished : Bool := false
  /-- The bytes that were unpacked last, of which some may not have been asked for. -/
  buffer : ByteArray := .empty
  used : Nat := 0

def openEntry (archive : Archive) (entry : Entry) : Except Fault Member := do
  let bytes := archive.bytes
  if wordBound ≤ entry.place.natAbs && entry.place != -(wordBound : Int) then throw .farPlace
  if entry.place < 0 then throw (.negativePlace entry.place)
  let place := entry.place.toNat
  if bytes.size < place + headerSize then throw .truncatedHeader
  if !marksAt bytes place [0x50, 0x4B, 0x03, 0x04] then throw .badHeaderMark
  let afterName := min (place + headerSize + numberAt bytes 2 (place + 26)) bytes.size
  let name := bytes.extract (place + headerSize) afterName
  let afterExtra := min (afterName + numberAt bytes 2 (place + 28)) bytes.size
  if entry.flags.testBit 5 then throw .patchedData
  if entry.flags.testBit 6 then throw .strongEncryption
  if (← readName (numberAt bytes 2 (place + 6)) name) ≠ entry.listedName then
    throw (.differentNames entry.listedName name.data.toList)
  if archive.stop entry < ((afterExtra + entry.packedSize : Nat) : Int) then
    throw (.overlap entry.listedName)
  if entry.flags.testBit 0 then throw (.encrypted entry.name)
  match archive.unpackers.begin? entry.method with
  | none => throw .unknownMethod
  | some unpacking =>
      return {
        entry, bytes, unpacking
        place := afterExtra
        packedLeft := entry.packedSize
        left := entry.size }

def open? (archive : Archive) (name : String) : Option (Except Fault Member) :=
  (archive.find? name).map (openEntry archive)

namespace Member

/-- The least number of packed bytes taken at a time, and the least room for inflated ones. -/
def leastPiece : Nat := 4096

/-- Takes packed bytes, at least as many as wanted if there are so many. -/
def takePacked (member : Member) (wanted : Nat) : Except Fault (ByteArray × Member) :=
  if member.packedLeft = 0 then .ok (.empty, member)
  else
    let count := min (max wanted leastPiece) member.packedLeft
    let packed := Bytes.slice member.bytes member.place (member.place + count)
    if wordBound ≤ count then .error .longRequest
    else if packed.size = 0 then .error .truncatedData
    else
      .ok
        (packed,
          { member with
            place := member.place + packed.size
            packedLeft := member.packedLeft - packed.size })

/-- Inflates the packed data of a member, with room for as many bytes as wanted. -/
def inflate (member : Member) (inflation : Inflation) (wanted : Nat) :
    Except Fault (ByteArray × Member) := do
  let (packed, member) ←
    if inflation.unused < wanted then member.takePacked (wanted - inflation.unused)
    else pure (.empty, member)
  if wordBound ≤ wanted then throw .wideRequest
  let supplied := if packed.size = 0 then inflation else inflation.supply packed
  let before := supplied.output.size
  let (inflation, damage) := supplied.run (before + max wanted leastPiece)
  if let some damage := damage then throw (.damagedData damage)
  let finished := inflation.finished || (member.packedLeft = 0 && inflation.unused = 0)
  let inflation := if finished then (inflation.run (2 * wordBound)).1 else inflation
  return (inflation.output.extract before inflation.output.size,
    { member with unpacking := .deflated inflation, finished })

/-- Takes stored data of a member, at least as many bytes as wanted if there are so many. -/
def copy (member : Member) (wanted : Nat) : Except Fault (ByteArray × Member) := do
  let (data, member) ← member.takePacked wanted
  return (data, { member with finished := member.packedLeft = 0 })

/-- Has a library unpack a piece of the data of a member. -/
def unpack (member : Member) (unpacker : Unpacker) (earlier : List ByteArray) (piece : ByteArray) :
    Except Fault (ByteArray × Member) := do
  let unpacked ← (unpacker earlier piece).mapError .refusedData
  return (unpacked.data,
    { member with
      unpacking := .packed unpacker (earlier ++ [piece])
      finished := unpacked.ended || member.packedLeft = 0 })

/-- Has a library unpack the data of a member, of which the front has come so far. -/
def unpackFront (member : Member) (choose : ByteArray → Except Refusal Unpacker)
    (front : ByteArray) : Except Fault (ByteArray × Member) := do
  match propertiesEnd? front with
  | none =>
      return (.empty,
        { member with unpacking := .fronted choose front, finished := member.packedLeft = 0 })
  | some stop =>
      let unpacker ← (choose (front.extract 4 stop)).mapError .refusedData
      member.unpack unpacker [] (front.extract stop front.size)

/-- Takes packed data of a member, if any is left, and unpacks what it has come to. -/
def unpackNext (member : Member) (wanted : Nat) : Except Fault (ByteArray × Member) :=
  match member.unpacking with
  | .stored => member.copy wanted
  | .deflated inflation => member.inflate inflation wanted
  | .packed unpacker earlier => do
      let (piece, member) ← member.takePacked wanted
      member.unpack unpacker earlier piece
  | .fronted choose front => do
      let (piece, member) ← member.takePacked wanted
      member.unpackFront choose (front ++ piece)

/-- Unpacks the next piece of a member. No more is given than the member is said to have. The
checksum is checked with the last piece. -/
def next (member : Member) (wanted : Nat) : Except Fault (ByteArray × Member) := do
  let (data, member) ← member.unpackNext wanted
  let data := Bytes.slice data 0 member.left
  let left := member.left - data.size
  let finished := member.finished || left = 0
  let checksum := member.checksum.add data
  if finished && checksum.value ≠ member.entry.checksum then
    throw (.badChecksum member.entry.name)
  return (data, { member with left, finished, checksum })

/-- Adds pieces of a member to some bytes, until as many as wanted are added or the member is at its
end. What is unpacked beyond that is kept. -/
def readOn : (rounds wanted : Nat) → ByteArray → Member → Except Fault (ByteArray × Member)
  | 0, _, done, member => .ok (done, member)
  | rounds + 1, wanted, done, member => do
      if wanted = 0 || member.finished then return (done, member)
      let (piece, member) ← member.next wanted
      if wanted < piece.size then
        return (done ++ piece.extract 0 wanted, { member with buffer := piece, used := wanted })
      readOn rounds (wanted - piece.size) (done ++ piece) member

/-- Reads as many bytes as wanted, or fewer at the end of the member. Every round gives a byte, takes
packed bytes or uses up those taken, so that the rounds suffice. -/
def read (member : Member) (wanted : Nat) : Except Fault (ByteArray × Member) :=
  let stop := member.used + wanted
  let kept := Bytes.slice member.buffer member.used stop
  if stop < member.buffer.size then .ok (kept, { member with used := stop })
  else
    readOn (wanted + 2 * member.packedLeft + 2) (wanted - kept.size) kept
      { member with buffer := .empty, used := 0 }

/-- The most bytes of a piece where all of a member is read at once. -/
def widestPiece : Nat := 0x40000000

def readRest : (rounds : Nat) → ByteArray → Member → Except Fault ByteArray
  | 0, done, _ => .ok done
  | rounds + 1, done, member => do
      if member.finished then return done
      let (piece, member) ← member.next widestPiece
      readRest rounds (done ++ piece) member

def readAll (member : Member) : Except Fault ByteArray :=
  readRest (member.left + 2 * member.packedLeft + 2) .empty member

/-- Reads a member in chunks of a size, until one is empty. Tells the chunks, the last one first, and
the fault that ended the reading, if any. -/
def chunksAfter (size : Nat) : (rounds : Nat) → List ByteArray → Member →
    List ByteArray × Option Fault
  | 0, done, _ => (done, none)
  | rounds + 1, done, member =>
      match member.read size with
      | .error fault => (done, some fault)
      | .ok (chunk, member) =>
          if chunk.size = 0 then (done, none)
          else chunksAfter size rounds (chunk :: done) member

/-- The chunks of a member, and the fault that ended the reading, if any. -/
def chunks (member : Member) (size : Nat) : List ByteArray × Option Fault :=
  let (chunks, fault) := chunksAfter size (member.left + 1) [] member
  (chunks.reverse, fault)

end Member

def read? (archive : Archive) (name : String) : Option (Except Fault ByteArray) :=
  (archive.open? name).map fun member => do (← member).readAll

theorem isSome_open? {archive : Archive} {name : String} :
    (archive.open? name).isSome = true ↔ name ∈ archive.names := by
  simp [open?, isSome_find?]

theorem isSome_read? {archive : Archive} {name : String} :
    (archive.read? name).isSome = true ↔ name ∈ archive.names := by
  simp [read?, isSome_open?]

end WordStream.Archive

import WordStream.Archive.Inflate

/-!
# Unpackers

The data of a member is stored as it is, deflated, or packed by bzip2 or LZMA, which libraries unpack. A
library is given its data piece by piece; what a piece comes to may hang on all pieces before it.
-/

set_option autoImplicit false

namespace WordStream.Archive

/-- Why a library does not unpack data. -/
inductive Refusal where
  | invalidStream
  | unknownFormat
  | unknownOptions
  | corruptData
  | memoryLimit
  | shortBuffer
  | internal
deriving DecidableEq, Repr

def Refusal.message : Refusal → String
  | invalidStream => "Invalid data stream"
  | unknownFormat => "Input format not supported by decoder"
  | unknownOptions => "Invalid or unsupported options"
  | corruptData => "Corrupt input data"
  | memoryLimit => "Memory usage limit exceeded"
  | shortBuffer => "Insufficient buffer space"
  | internal => "Internal error"

/-- What a piece of packed data comes to. -/
structure Unpacked where
  data : ByteArray
  /-- Whether the packed data ends within the piece. -/
  ended : Bool

/-- Unpacks a piece of data, after those that were unpacked before it. -/
abbrev Unpacker := (earlier : List ByteArray) → (piece : ByteArray) → Except Refusal Unpacked

/-- The libraries that unpack data. How LZMA data is to be unpacked is told by its properties. -/
structure Unpackers where
  bzip2 : Unpacker
  lzma : (properties : ByteArray) → Except Refusal Unpacker

/-- Libraries that know no data. -/
def Unpackers.standard : Unpackers where
  bzip2 _ _ := .error .invalidStream
  lzma _ := .error .unknownOptions

/-- How far the data of a member has been unpacked. -/
inductive Unpacking where
  | stored
  | deflated (inflation : Inflation)
  | packed (unpacker : Unpacker) (earlier : List ByteArray)
  /-- At the front of the data, which holds the properties. -/
  | fronted (choose : ByteArray → Except Refusal Unpacker) (front : ByteArray)

/-- How data is unpacked that was packed by the method of a number, unless there is no such method. -/
def Unpackers.begin? (unpackers : Unpackers) : (method : Nat) → Option Unpacking
  | 0 => some .stored
  | 8 => some (.deflated {})
  | 12 => some (.packed unpackers.bzip2 [])
  | 14 => some (.fronted unpackers.lzma .empty)
  | _ => none

/-- Where the properties at the front of packed data end, if they are all there and more follows them. The
second number of the front is their size. -/
def propertiesEnd? (front : ByteArray) : Option Nat :=
  let stop := 4 + numberAt front 2 2
  if 4 < front.size && stop < front.size then some stop else none

end WordStream.Archive

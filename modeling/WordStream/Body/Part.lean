import WordStream.Body.Rendition
import WordStream.Bytes
import WordStream.Failure
import WordStream.Markup.Parser

/-!
# Translating a part

A part of a document is translated from the chunks in which it arrives: they are read element by
element, and every call of the reader is carried into one session.
-/

set_option autoImplicit false

namespace WordStream.Body

/-- How the bytes of a part are handed over. -/
inductive Delivery where
  /-- All at once, to be cut into chunks. -/
  | bytes
  /-- From a stream, chunk by chunk. -/
  | stream
deriving DecidableEq, Repr

namespace Delivery

/-- Cuts bytes into at most as many chunks of a size as told, after a number of bytes. -/
def cutAfter (size : Nat) (bytes : ByteArray) : (count place : Nat) → List ByteArray
  | 0, _ => []
  | count + 1, place =>
      if bytes.size ≤ place then []
      else Bytes.slice bytes place (place + size) :: cutAfter size bytes count (place + size)

/-- Cuts bytes into chunks of a size, the last of which may be shorter. -/
def cut (size : Nat) (bytes : ByteArray) : List ByteArray :=
  cutAfter size bytes bytes.size 0

/-- The chunks in which bytes arrive. No chunks of a negative size can be cut, so nothing arrives; a stream
that is asked for a negative number of bytes gives all it has. A stream cannot be asked for a number
that no word can tell. -/
def chunks (delivery : Delivery) (size : Int) (bytes : ByteArray) :
    Except Failure (List ByteArray) :=
  match delivery with
  | .bytes => .ok (if size < 0 then [] else cut size.toNat bytes)
  | .stream =>
      if !Settings.isWord size then .error .longRequest
      else .ok (if size < 0 then cut bytes.size bytes else cut size.toNat bytes)

end Delivery

/-- The session that translates a part from its chunks, unless the part is malformed. -/
def Session.ofChunks? (parser : Markup.Parser) (context : Context) (policy : Policy)
    (chunks : List ByteArray) : Option Session :=
  (parser.read? chunks).map (Session.calls context policy {})

/-- The rendition of a part for a sink from its chunks, unless the part is malformed. -/
def Rendition.ofChunks? {Store : Type} (parser : Markup.Parser) (context : Context)
    (sink : Sink Store) (store : Store) (chunks : List ByteArray) : Option (Rendition Store) :=
  (parser.read? chunks).map (Rendition.calls context sink { store })

end WordStream.Body

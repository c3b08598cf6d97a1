import WordStream.Markup.Document
import WordStream.Markup.Stream

/-!
# Parsers

A parser tells a document call by call. What it tells of chunks hangs on all of them, and it may tell
something before it refuses one. The parser of documents in some encodings reads them as streams.
-/

set_option autoImplicit false

namespace WordStream.Markup

/-- What is told of some chunks. -/
structure Telling where
  calls : List Call
  /-- Whether nothing in the chunks is refused. -/
  accepted : Bool
deriving DecidableEq, Repr

/-- What reads documents. -/
structure Parser where
  /-- What is told of chunks behind which others may come. -/
  feed : List ByteArray → Telling
  /-- What is told of all chunks of a document. -/
  close : List ByteArray → Telling
  /-- The calls that tell a document that is there as a whole, unless it is malformed. -/
  load? : ByteArray → Option (List Call)

/-- The calls that tell a document that arrives in chunks, unless it is malformed. -/
def Parser.read? (parser : Parser) (chunks : List ByteArray) : Option (List Call) :=
  if (parser.feed chunks).accepted && (parser.close chunks).accepted then
    some (parser.close chunks).calls
  else none

namespace Stream

/-- What is told of chunks. Of a chunk that is refused that much is told as is read before. -/
def tellFed (stream : Stream) : List ByteArray → Telling
  | [] => { calls := stream.told, accepted := true }
  | chunk :: chunks =>
      match stream.feed chunk with
      | some later => tellFed later chunks
      | none =>
          let arrived := { stream with begun := true }.take (splitReturn chunk.data.toList).1
          { calls := (arrived.reached false).told, accepted := false }

/-- What is told of a document after its last chunk. -/
def tellEnded (stream : Stream) : Telling :=
  match stream.last? with
  | some last => { calls := last.told, accepted := true }
  | none => { calls := (stream.ended?.elim stream (reached true)).told, accepted := false }

end Stream

namespace Parser

/-- The parser of documents of which the declarations may name some encodings. -/
def ofEncodings (encodings : Encodings) : Parser where
  feed := Stream.tellFed { encodings }
  close chunks :=
    match Stream.feedAll? { encodings } chunks with
    | some stream => stream.tellEnded
    | none => Stream.tellFed { encodings } chunks
  load? := Markup.load? encodings

def standard : Parser := .ofEncodings .standard

theorem accepted_tellFed (stream : Stream) (chunks : List ByteArray) :
    (stream.tellFed chunks).accepted = (stream.feedAll? chunks).isSome := by
  induction chunks generalizing stream with
  | nil => rfl
  | cons chunk chunks ih =>
      rw [Stream.tellFed, Stream.feedAll?, List.foldlM_cons]
      cases stream.feed chunk with
      | none => rfl
      | some later => exact ih later

/-- What is read of chunks is what the stream tells that they are fed to. -/
theorem read?_ofEncodings (encodings : Encodings) (chunks : List ByteArray) :
    (ofEncodings encodings).read? chunks =
      Stream.feedAll? { encodings } chunks >>= Stream.close := by
  have fed : ((ofEncodings encodings).feed chunks).accepted =
      (Stream.feedAll? { encodings } chunks).isSome := accepted_tellFed _ chunks
  rw [read?, fed]
  cases found : Stream.feedAll? { encodings } chunks with
  | none => rfl
  | some stream =>
      have closed : (ofEncodings encodings).close chunks = stream.tellEnded := by
        simp only [ofEncodings, found]
      rw [closed, Stream.tellEnded]
      change _ = stream.last?.map Stream.told
      cases stream.last? <;> rfl

end Parser

end WordStream.Markup

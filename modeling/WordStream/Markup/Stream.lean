import WordStream.Markup.Content
import WordStream.Markup.Encoding

/-!
# Streams

A document may arrive in chunks. Whatever is complete of it is read as soon as it has arrived, so that
a malformed document is refused before its end. A part of the document is complete when its closing
mark is there; a stretch of text is read as far as it has come once it is long enough.
-/

set_option autoImplicit false

namespace WordStream.Markup

/-- Where the reading of a stream stands. -/
inductive Stage where
  | opening
  | prolog
  | beforeRoot
  | subset
  | content
  | epilog
  | done
deriving DecidableEq, Repr

/-- A document that is read while it arrives. -/
structure Stream where
  encodings : Encodings
  stage : Stage := .opening
  begun : Bool := false
  bytes : List UInt8 := []
  decoder : Decoder := {}
  /-- The characters that have arrived and are not read yet. -/
  text : List Char := []
  declarations : Declarations := {}
  progress : Progress := {}
  record : Record := {}

namespace Stream

def holds (mark : List Char) : List Char → Bool
  | [] => false
  | character :: rest => mark.isPrefixOf (character :: rest) || holds mark rest

/-- Whether a mark stands in the text behind the front of it. -/
def holdsMark (front : Nat) (mark : String) (text : List Char) : Bool :=
  holds mark.toList (text.drop front)

def holdsTagEnd : (quote : Option Char) → List Char → Bool
  | _, [] => false
  | some quote, character :: rest =>
      holdsTagEnd (if character = quote then none else some quote) rest
  | none, character :: rest =>
      if character = '>' then true
      else holdsTagEnd (if character = '"' || character = '\'' then some character else none) rest

/-- Where the search for the end of declarations in brackets stands. -/
inductive Search where
  | outside
  | quoted (quote : Char)
  | comment
  | bracket
  | space
deriving DecidableEq, Repr

namespace Search

/-- Goes on from outside of quotes and comments by a character. -/
def start (character : Char) : Search :=
  if character = '"' || character = '\'' then quoted character
  else if character = ']' then bracket
  else outside

/-- Whether declarations end in a text, of which some characters are to be skipped first. -/
def ends : Search → (skipped : Nat) → List Char → Bool
  | _, _, [] => false
  | search, skipped + 1, _ :: rest => ends search skipped rest
  | quoted quote, 0, character :: rest =>
      ends (if character = quote then outside else quoted quote) 0 rest
  | comment, 0, character :: rest =>
      if "-->".toList.isPrefixOf (character :: rest) then ends outside 2 rest
      else ends comment 0 rest
  | search, 0, character :: rest =>
      if search != outside && character = '>' then true
      else if search != outside && isSpace character then ends space 0 rest
      else if "<!--".toList.isPrefixOf (character :: rest) then ends comment 3 rest
      else ends (start character) 0 rest

end Search

def run {α : Type} (stream : Stream) (scan : Scan α) : Option (α × Stream) := do
  let ((value, text), record) ← (scan.run stream.text).run stream.record
  return (value, { stream with text, record })

def setting (stream : Stream) : Setting :=
  { mode := .streaming, declarations := stream.declarations }

/-- Reads content, and tells whether the root element is complete by then. -/
def advance (stream : Stream) (scan : Progress → Scan Progress) : Option Stream := do
  let (progress, later) ← stream.run (scan stream.progress)
  return { later with progress, stage := if progress.elements.isEmpty then .epilog else .content }

/-- Opens the document if enough of it has arrived. -/
def openText (final : Bool) (stream : Stream) : Option (Option Stream) := do
  let (opening?, record) ← (Opening.read stream.encodings final stream.bytes).run stream.record
  return opening?.map fun opening =>
    { stream with
      stage := .prolog
      bytes := []
      decoder := opening.decoder
      text := opening.text
      declarations := { standalone := opening.declaration.standalone }
      record }

/-- Reads a comment or a processing instruction, if it is complete. -/
def skip (final : Bool) (stream : Stream) (front mark : String) (body : Scan Unit) :
    Option (Option Stream) :=
  if final || holdsMark front.length mark stream.text then
    (stream.run (do Scan.exact front; body)).map fun found => some found.2
  else some none

def startTag (final : Bool) (stream : Stream) : Option (Option Stream) :=
  match stream.text with
  | '<' :: rest =>
      if final || holdsTagEnd none rest then
        some <$> stream.advance fun progress => do
          Scan.exact "<"
          Content.startTag stream.setting progress
      else some none
  | text => if final || holdsBytes 2 stream.decoder.held text then none else some none

/-- Reads a document type up to its declarations, if it is complete. -/
def doctype (final : Bool) (stream : Stream) : Option (Option Stream) := do
  if final || holdsTagEnd none (stream.text.drop 1) then
    let ((declarations, more), later) ← stream.run do
      Scan.exact "<!DOCTYPE"
      Doctype.head stream.declarations
    return some { later with declarations, stage := if more then .subset else .beforeRoot }
  else return none

/-- Reads the declarations within a document type, if they are complete. -/
def subset (final : Bool) (stream : Stream) : Option (Option Stream) := do
  if final || Search.ends .outside 1 stream.text then
    let (declarations, later) ← stream.run (Doctype.subset stream.declarations)
    return some { later with declarations, stage := .beforeRoot }
  else return none

/-- Whether the front of a text may become one of several marks, or none. -/
def isUndecided (marks : List String) (text : List Char) : Bool :=
  marks.any fun mark => text.isPrefixOf mark.toList && !mark.toList.isPrefixOf text

/-- Reads one thing outside of the root element. What should not stand behind the root element ends the
reading of a document with faults. -/
def outside (final : Bool) (stream : Stream) : Option (Option Stream) :=
  let begins := fun mark : String => mark.toList.isPrefixOf stream.text
  if stream.text.head?.any isSpace then
    some (some { stream with text := stream.text.dropWhile isSpace })
  else if stream.text.isEmpty || !final && isUndecided ["<?", "<!--"] stream.text then some none
  else if begins "<?" then stream.skip final "<?" "?>" instruction
  else if begins "<!--" then stream.skip final "<!--" "-->" comment
  else if stream.stage = .epilog then
    if stream.record.faulty then some (some { stream with stage := .done, text := [] }) else none
  else if stream.stage = .prolog && begins "<!" && !final && !holdsBytes 9 0 stream.text then some none
  else if stream.stage = .prolog && begins "<!DOCTYPE" then stream.doctype final
  else stream.startTag final

/-- Reads the next part of content, if a mark behind the front of it tells that it is complete. -/
def part (final : Bool) (stream : Stream) (front : Nat) (mark : String) : Option (Option Stream) :=
  if final || holdsMark front mark stream.text then
    some <$> stream.advance fun progress => do
      match ← Content.nextPart stream.setting progress with
      | some later => return later
      | none => failure
  else some none

/-- Reads a stretch of text, if it is complete or long enough. -/
def stretch (final : Bool) (stream : Stream) : Option (Option Stream) :=
  if final || holdsBytes Stretch.fullSize stream.decoder.held stream.text ||
      stream.text.any fun character => character = '<' || character = '&' then
    some <$> stream.advance (Content.stretch final)
  else some none

def content (final : Bool) (stream : Stream) : Option (Option Stream) :=
  let begins := fun mark : String => mark.toList.isPrefixOf stream.text
  if stream.text.isEmpty || !final &&
      (isUndecided ["</", "<?", "<!--"] stream.text || begins "<![" && !holdsBytes 9 0 stream.text)
  then some none
  else if begins "<?" then stream.skip final "<?" "?>" instruction
  else if begins "<!--" then stream.skip final "<!--" "-->" comment
  else if begins "<![CDATA[" then stream.part final 9 "]]>"
  else if begins "</" then stream.part final 1 ">"
  else if begins "<" then stream.startTag final
  else if begins "&" then stream.part final 1 ";"
  else stream.stretch final

/-- Reads one thing that is complete. Tells none if there is nothing complete. -/
def step (final : Bool) (stream : Stream) : Option (Option Stream) :=
  match stream.stage with
  | .opening => stream.openText final
  | .prolog | .beforeRoot | .epilog => stream.outside final
  | .subset => if stream.text.isEmpty then some none else stream.subset final
  | .content => stream.content final
  | .done => some none

/-- Reads on, at most as many things as told. -/
def steps (final : Bool) : (count : Nat) → Stream → Option Stream
  | 0, stream => some stream
  | count + 1, stream => do
      match ← stream.step final with
      | none => return stream
      | some later => steps final count later

/-- Reads all that is complete. Every thing has a character at least, save that the document is opened and
that its reading ends. -/
def readOn (final : Bool) (stream : Stream) : Option Stream :=
  steps final (stream.bytes.length + stream.text.length + 2) stream

/-- The stream that the steps lead to which are taken before one is refused, at most as many as told. -/
def stepsUntil (final : Bool) : (count : Nat) → Stream → Stream
  | 0, stream => stream
  | count + 1, stream =>
      match stream.step final with
      | none | some none => stream
      | some (some later) => stepsUntil final count later

/-- How far a stream comes until something is refused. -/
def reached (final : Bool) (stream : Stream) : Stream :=
  stepsUntil final (stream.bytes.length + stream.text.length + 2) stream

def take (stream : Stream) (bytes : List UInt8) : Stream :=
  let record := { stream.record with size := stream.record.size + bytes.length }
  match stream.stage with
  | .opening => { stream with bytes := stream.bytes ++ bytes, record }
  | _ =>
      let (text, decoder) := stream.decoder.take bytes
      { stream with text := stream.text ++ text, decoder, record }

/-- Splits bytes that arrive into those that are read at once and those that are left for later: a carriage
return at the end, as a line feed may follow. -/
def splitReturn (bytes : List UInt8) : List UInt8 × List UInt8 :=
  if bytes.getLast? = some 0x0D then (bytes.dropLast, [0x0D]) else (bytes, [])

/-- Takes bytes that arrive and reads on. -/
def push (stream : Stream) (bytes : List UInt8) : Option Stream :=
  let (now, later) := splitReturn bytes
  ((stream.take now).readOn false).map (·.take later)

/-- The number of bytes that arrive before any is read. -/
def firstCount : Nat := 4

/-- Takes a chunk, unless the document turns out to be malformed. Nothing is read of few bytes that come
first, and for no bytes. -/
def feed (stream : Stream) (chunk : ByteArray) : Option Stream :=
  let begun := { stream with begun := true }
  let bytes := chunk.data.toList
  if bytes.length ≤ (if stream.begun then 0 else firstCount) then some (begun.take bytes)
  else begun.push bytes

/-- A stream that is open, though nothing may be known of what comes first. -/
def open? (stream : Stream) : Option Stream := do
  if stream.stage = .opening then
    let opened? ← stream.openText true
    opened?
  else return stream

/-- A stream of which all text has arrived. -/
def ended? (stream : Stream) : Option Stream := do
  guard stream.begun
  let opened ← stream.open?
  let rest ← opened.decoder.finish?
  return { opened with text := opened.text ++ rest }

/-- Reads the rest of the document after the last chunk, unless the document is malformed. -/
def last? (stream : Stream) : Option Stream := do
  let last ← (← stream.ended?).readOn true
  guard (last.stage = .epilog || last.stage = .done)
  return last

def told (stream : Stream) : List Call := stream.progress.calls.reverse

/-- The calls that tell the whole document, unless it is malformed. -/
def close (stream : Stream) : Option (List Call) := stream.last?.map told

/-- Takes chunks, unless the document turns out to be malformed. -/
def feedAll? (stream : Stream) (chunks : List ByteArray) : Option Stream :=
  chunks.foldlM feed stream

end Stream

end WordStream.Markup

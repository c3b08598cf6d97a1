import WordStream.Markup.Declaration
import WordStream.Text.Utf8

/-!
# Encodings of a document

A document arrives as bytes, which are decoded as they come: bytes of a character that is not
complete wait for the others. A byte-order mark or the width of the first characters tells the
encoding; otherwise the document's own declaration does, and it is UTF-8 if nothing is told.
-/

set_option autoImplicit false

namespace WordStream.Markup

open Text.Utf8Fault (continuations? maySecond isContinuation)

/-- The character that stands for bytes that are none. No document may hold it. -/
def undecodable : Char := '\x00'

/-- Makes characters of bytes, one byte after the other. What a byte comes to hangs on what is kept of
those before it. -/
structure Converter where
  step : (kept : List UInt8) → UInt8 → List UInt8 × List Char
  /-- Whether bytes of which this is kept may end there. -/
  isWhole : (kept : List UInt8) → Bool := List.isEmpty

/-- How the characters of a document are written. UTF-8 is read where it stands; what is written otherwise
is converted first. -/
inductive Encoding where
  | utf8
  | converted (converter : Converter)

namespace Encoding

/-- An encoding with one byte for each character. -/
def table (read : UInt8 → Char) : Encoding :=
  .converted { step := fun kept byte => (kept, [read byte]) }

def latin1 : Encoding := .table fun byte => Char.ofNat byte.toNat

def ascii : Encoding :=
  .table fun byte => if byte < 0x80 then Char.ofNat byte.toNat else undecodable

/-- The 16-bit unit of two bytes. -/
def joinBytes (bigEndian : Bool) (first second : UInt8) : Nat :=
  if bigEndian then first.toNat * 0x100 + second.toNat else second.toNat * 0x100 + first.toNat

/-- Whether a 16-bit unit is the leading one of a pair. -/
def isLeading (unit : Nat) : Bool := 0xD800 ≤ unit && unit < 0xDC00

/-- Whether a 16-bit unit is the trailing one of a pair. -/
def isTrailing (unit : Nat) : Bool := 0xDC00 ≤ unit && unit < 0xE000

def utf16Step (bigEndian : Bool) (kept : List UInt8) (byte : UInt8) : List UInt8 × List Char :=
  match kept with
  | [first] =>
      let unit := joinBytes bigEndian first byte
      if isLeading unit then ([first, byte], [])
      else if isTrailing unit then ([], [undecodable])
      else ([], [Char.ofNat unit])
  | [first, second, third] =>
      let leading := joinBytes bigEndian first second
      let trailing := joinBytes bigEndian third byte
      if isTrailing trailing then
        ([], [Char.ofNat (0x10000 + (leading - 0xD800) * 0x400 + (trailing - 0xDC00))])
      else ([], [undecodable])
  | _ => (kept ++ [byte], [])

def utf16 (bigEndian : Bool) : Encoding :=
  .converted { step := utf16Step bigEndian }

/-- The encoding that the first bytes tell, and the number of bytes of the mark that tells it. -/
def ofMark? : List UInt8 → Option (Encoding × Nat)
  | 0xEF :: 0xBB :: 0xBF :: _ => some (.utf8, 3)
  | 0xFE :: 0xFF :: _ => some (.utf16 true, 2)
  | 0xFF :: 0xFE :: _ => some (.utf16 false, 2)
  | 0x00 :: 0x3C :: 0x00 :: 0x3F :: _ => some (.utf16 true, 0)
  | 0x3C :: 0x00 :: 0x3F :: 0x00 :: _ => some (.utf16 false, 0)
  | _ => none

end Encoding

/-- The encodings that a declaration may name. -/
structure Encodings where
  ofName? : String → Option Encoding

namespace Encodings

/-- Names of encodings, in upper case. -/
def names : List (String × Encoding) :=
  [("UTF-8", .utf8), ("UTF8", .utf8), ("ISO-8859-1", .latin1), ("ISO-LATIN-1", .latin1),
   ("ISO_8859-1", .latin1), ("ISO8859-1", .latin1), ("LATIN1", .latin1), ("L1", .latin1),
   ("CP819", .latin1), ("IBM819", .latin1), ("US-ASCII", .ascii), ("ASCII", .ascii)]

/-- Encodings that are named in any case. -/
def standard : Encodings where
  ofName? name := names.lookup (name.map Char.toUpper)

end Encodings

structure Decoder where
  encoding : Encoding := .utf8
  /-- The bytes of a character that is not complete, in their order, or what a converter keeps. -/
  waiting : List UInt8 := []

namespace Decoder

/-- The character of the bytes of a UTF-8 character, of which the first holds the bits that the
others leave. -/
def utf8Character : List UInt8 → Char
  | [] => undecodable
  | first :: others =>
      let front := first.toNat % (if others.isEmpty then 0x80 else Nat.shiftRight 0x40 others.length)
      Char.ofNat (others.foldl (fun code byte => 0x40 * code + byte.toNat % 0x40) front)

/-- Takes a byte where a UTF-8 character begins. -/
def utf8Start (byte : UInt8) : List UInt8 × List Char :=
  match continuations? byte with
  | none => ([], [undecodable])
  | some 0 => ([], [Char.ofNat byte.toNat])
  | some _ => ([byte], [])

def utf8Step (waiting : List UInt8) (byte : UInt8) : List UInt8 × List Char :=
  match waiting with
  | [] => utf8Start byte
  | first :: others =>
      let carries := if others.isEmpty then maySecond first byte else isContinuation byte
      if carries then
        if continuations? first = some (others.length + 1) then
          ([], [utf8Character (waiting ++ [byte])])
        else (waiting ++ [byte], [])
      else
        let (waiting, characters) := utf8Start byte
        (waiting, undecodable :: characters)

def step : (encoding : Encoding) → List UInt8 → UInt8 → List UInt8 × List Char
  | .utf8 => utf8Step
  | .converted converter => converter.step

/-- Takes bytes. The characters so far are held in reverse. -/
def takeAfter (encoding : Encoding) (done : List Char) (waiting : List UInt8) :
    List UInt8 → List Char × List UInt8
  | [] => (done.reverse, waiting)
  | byte :: bytes =>
      let (waiting, characters) := step encoding waiting byte
      takeAfter encoding (characters.reverseAux done) waiting bytes

def take (decoder : Decoder) (bytes : List UInt8) : List Char × Decoder :=
  let (characters, waiting) := takeAfter decoder.encoding [] decoder.waiting bytes
  (characters, { decoder with waiting })

/-- The number of bytes that have arrived where the text is read and are no character yet. -/
def held (decoder : Decoder) : Nat :=
  match decoder.encoding with
  | .utf8 => decoder.waiting.length
  | .converted _ => 0

/-- The characters that are left where no more bytes come. What is converted must end with a character. -/
def finish? (decoder : Decoder) : Option (List Char) :=
  match decoder.encoding with
  | .utf8 => some (if decoder.waiting.isEmpty then [] else [undecodable])
  | .converted converter => if converter.isWhole decoder.waiting then some [] else none

end Decoder

/-- Whether characters take as many bytes as told, with some more bytes after them. -/
def holdsBytes (count : Nat) (more : Nat) : List Char → Bool
  | [] => count ≤ more
  | character :: others =>
      count ≤ character.utf8Size || holdsBytes (count - character.utf8Size) more others

/-- The beginning of a document: its declaration, the decoder of its encoding, and the characters
that follow the declaration. -/
structure Opening where
  declaration : Declaration := {}
  decoder : Decoder := {}
  text : List Char := []

namespace Opening

/-- Reads the declaration, if there is one, of a document of which some bytes follow a byte-order
mark. The encoding that it names holds for what follows it, unless the encoding is known. -/
def afterMark (encodings : Encodings) (known : Option Encoding) (bytes : List UInt8)
    (opening : Opening) : Reader Opening := do
  if Declaration.begins opening.text then
    let (declaration, text) ← Declaration.scan.run opening.text
    match known, declaration.encoding with
    | none, some name =>
        let encoding ← liftM (encodings.ofName? name)
        let used := opening.text.length - text.length
        let (text, decoder) := Decoder.take { encoding } (bytes.drop used)
        return { declaration, decoder, text }
    | _, _ => return { opening with declaration, text }
  else return opening

def isWithinInstruction : List Char → Bool
  | '<' :: '?' :: rest => (Scan.splitAt? "?>".toList [] rest).isNone
  | _ => false

/-- Opens a document with its first bytes. Tells none if more bytes have to come before that. -/
def read (encodings : Encodings) (final : Bool) (bytes : List UInt8) : Reader (Option Opening) := do
  if !final && bytes.length < 4 then return none
  let mark := Encoding.ofMark? bytes
  let unmarked := bytes.drop ((mark.map (·.2)).getD 0)
  let known := mark.map (·.1)
  let (text, decoder) := Decoder.take { encoding := known.getD .utf8 } unmarked
  if !final && (!holdsBytes 2 decoder.held text || isWithinInstruction text) then return none
  some <$> afterMark encodings known unmarked { decoder, text }

end Opening

end WordStream.Markup

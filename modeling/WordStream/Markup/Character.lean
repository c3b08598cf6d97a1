import WordStream.Text.Blank

/-!
# Characters of a document

The characters that may stand in a marked-up document, and those that names are made of.
-/

set_option autoImplicit false

namespace WordStream.Markup

def isDocumentCharacter (character : Char) : Bool :=
  Text.inRanges
    [(0x09, 0x0A), (0x0D, 0x0D), (0x20, 0xD7FF), (0xE000, 0xFFFD), (0x10000, 0x10FFFF)] character

def isSpace (character : Char) : Bool :=
  character = ' ' || character = '\t' || character = '\n' || character = '\r'

/-- Whether a name may begin with a character. -/
def isNameStart (character : Char) : Bool :=
  Text.inRanges
    [(0x61, 0x7A), (0x41, 0x5A), (0x3A, 0x3A), (0x5F, 0x5F), (0xC0, 0xD6), (0xD8, 0xF6),
     (0xF8, 0x2FF), (0x370, 0x37D), (0x37F, 0x1FFF), (0x200C, 0x200D), (0x2070, 0x218F),
     (0x2C00, 0x2FEF), (0x3001, 0xD7FF), (0xF900, 0xFDCF), (0xFDF0, 0xFFFD), (0x10000, 0xEFFFF)]
    character

/-- Whether a name may hold a character after its first. -/
def isNamePart (character : Char) : Bool :=
  isNameStart character ||
    Text.inRanges
      [(0x30, 0x39), (0x2D, 0x2E), (0xB7, 0xB7), (0x300, 0x36F), (0x203F, 0x2040)] character

def maxNameLength : Nat := 50000

def isName (characters : List Char) : Bool :=
  characters.head?.any isNameStart && characters.all isNamePart &&
    (String.ofList characters).utf8ByteSize ≤ maxNameLength

/-- Whether a text is a name without a colon. -/
def isPlainName (characters : List Char) : Bool :=
  isName characters && !characters.contains ':'

/-- Writes every line end of a text as one line feed, after the characters done so far, which are
held in reverse. -/
def unifyLinesAfter (done : List Char) : List Char → List Char
  | [] => done.reverse
  | '\r' :: '\n' :: rest => unifyLinesAfter ('\n' :: done) rest
  | '\r' :: rest => unifyLinesAfter ('\n' :: done) rest
  | character :: rest => unifyLinesAfter (character :: done) rest

/-- Writes every line end of a text as one line feed. -/
def unifyLines (characters : List Char) : List Char :=
  unifyLinesAfter [] characters

end WordStream.Markup

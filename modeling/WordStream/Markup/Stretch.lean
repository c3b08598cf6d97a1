import WordStream.Markup.Scan

/-!
# Stretches of text

A stretch of text runs up to the next tag or reference. It is told in pieces: plain text in one piece
up to each line end of two characters, and text with other characters in pieces of some size. No
stretch may hold the mark that ends a literal section.
-/

set_option autoImplicit false

namespace WordStream.Markup

/-- A stretch of text that is being split. -/
structure Stretch where
  /-- The pieces, the last one first. -/
  pieces : List String := []
  /-- The characters of the piece that is not complete, the last one first. -/
  piece : List Char := []
  size : Nat := 0
deriving DecidableEq, Repr

namespace Stretch

def add (stretch : Stretch) (character : Char) : Stretch :=
  { stretch with
    piece := character :: stretch.piece
    size := stretch.size + character.utf8Size }

/-- Completes a piece, unless it is empty. -/
def cut (stretch : Stretch) : Stretch :=
  if stretch.piece.isEmpty then stretch
  else { pieces := String.ofList stretch.piece.reverse :: stretch.pieces }

/-- The bytes of a piece at which it is complete in text that is not plain. -/
def fullSize : Nat := 300

def cutFull (stretch : Stretch) : Stretch :=
  if fullSize ≤ stretch.size then stretch.cut else stretch

def isPlain (character : Char) : Bool :=
  character = '\t' || character = '\n' || (' ' ≤ character && character.toNat < 0x80)

/-- Whether a closing bracket with some characters after it may be the beginning of the mark that ends
a literal section, of which the rest has not arrived. -/
def isOpenBracket (final : Bool) : List Char → Bool
  | [] | [']'] => !final
  | _ => false

def isSectionEnd : List Char → Bool
  | ']' :: '>' :: _ => true
  | _ => false

/-- Adds a character to a piece of text that is plain or not. -/
def addTo (stretch : Stretch) (plain : Bool) (character : Char) : Stretch :=
  if plain then stretch.add character else (stretch.add character).cutFull

/-- Splits a stretch, and tells what is left after it. Text is plain until another character comes.
Where more text may come, a bracket that could belong to a mark is left. -/
def split? (final : Bool) : (plain : Bool) → Stretch → List Char → Option (Stretch × List Char)
  | _, stretch, [] => some (stretch.cut, [])
  | plain, stretch, '\r' :: '\n' :: rest =>
      let broken := if plain then stretch.cut else stretch
      let plain := plain && rest.head?.any isPlain
      split? final plain (broken.addTo plain '\n') rest
  | plain, stretch, character :: rest =>
      if character = '<' || character = '&' then some (stretch.cut, character :: rest)
      else if character = ']' && isSectionEnd rest then none
      else if character = ']' && isOpenBracket final rest then some (stretch.cut, character :: rest)
      else if plain && isPlain character then split? final true (stretch.add character) rest
      else if isDocumentCharacter character then
        let broken := if plain then stretch.cut else stretch
        split? final false (broken.addTo false (if character = '\r' then '\n' else character)) rest
      else none

/-- Takes a stretch, and gives its pieces, the last one first. -/
def scan (final : Bool) : Scan (List String) := do
  let (stretch, left) ← liftM (split? final true {} (← Scan.rest))
  set left
  return stretch.pieces

end Stretch

end WordStream.Markup

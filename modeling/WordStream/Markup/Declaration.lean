import WordStream.Markup.Scan

/-!
# The declaration of a document

A document may begin with a declaration of its version, its encoding, and whether it stands
alone.
-/

set_option autoImplicit false

namespace WordStream.Markup

structure Declaration where
  encoding : Option String := none
  standalone : Bool := false
deriving DecidableEq, Repr

namespace Declaration

/-- Whether a text is a version number that readers accept: a one, a point and any digits. -/
def isVersion : List Char → Bool
  | '1' :: '.' :: digits => digits.all Char.isDigit
  | _ => false

def isEncodingName : List Char → Bool
  | [] => false
  | first :: others =>
      first.isAlpha &&
        others.all fun character =>
          character.isAlphanum || character = '.' || character = '_' || character = '-'

def setting (label : String) : Scan (List Char) := do
  Scan.exact label
  Scan.space
  Scan.exact "="
  Scan.space
  Scan.quoted

def encodingSetting : Scan (Option String) := do
  if ← Scan.at? "encoding" then
    let value ← setting "encoding"
    guard (isEncodingName value)
    return some (String.ofList value)
  else return none

def standaloneSetting : Scan Bool := do
  if ← Scan.at? "standalone" then
    let value ← setting "standalone"
    guard (value = "yes".toList || value = "no".toList)
    return value = "yes".toList
  else return false

/-- Takes a declaration. Separating characters stand before each setting. A version other than the
first one is a reason to warn. -/
def scan : Scan Declaration := do
  Scan.exact "<?xml"
  Scan.someSpace
  let version ← setting "version"
  guard (isVersion version)
  if version != "1.0".toList then Reader.warn
  let separated ← Scan.someSpaceTaken
  let encoding ← if separated then encodingSetting else pure none
  let separatedAgain ← Scan.someSpaceTaken
  let standalone ←
    if separatedAgain || (separated && encoding.isNone) then standaloneSetting else pure false
  Scan.space
  Scan.exact "?>"
  return { encoding, standalone }

/-- Whether a text begins with a declaration. A processing instruction whose name goes on after the
mark is none. -/
def begins (characters : List Char) : Bool :=
  match Scan.dropExact? "<?xml".toList characters with
  | some (character :: _) => isSpace character
  | _ => false

end Declaration

end WordStream.Markup

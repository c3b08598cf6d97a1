import WordStream.Markup.Reference

/-!
# References to resources

The form of the texts that may name a namespace: a scheme or none, an authority or none, a path, and
a query and a fragment or none.
-/

set_option autoImplicit false

namespace WordStream.Markup.UriReference

def isHostCharacter (character : Char) : Bool :=
  character.isAlphanum || "-._~!$&'()*+,;=".toList.contains character

def isUserCharacter (character : Char) : Bool :=
  isHostCharacter character || character = ':'

/-- Whether a segment without a colon may hold a character as it is. -/
def isPlainCharacter (character : Char) : Bool :=
  isHostCharacter character || character = '@'

def isPathCharacter (character : Char) : Bool :=
  isPlainCharacter character || character = ':' || character = '/'

def isQueryCharacter (character : Char) : Bool :=
  isPathCharacter character || character = '?'

def isFragmentCharacter (character : Char) : Bool :=
  isQueryCharacter character || character = '[' || character = ']'

def dropEscaped (accept : Char → Bool) : List Char → List Char
  | [] => []
  | '%' :: first :: second :: rest =>
      if (Reference.hexValue? first).isSome && (Reference.hexValue? second).isSome then
        dropEscaped accept rest
      else '%' :: first :: second :: rest
  | character :: rest => if accept character then dropEscaped accept rest else character :: rest

/-- Drops a path that begins with a slash, if one comes. -/
def dropSlashPath : List Char → List Char
  | '/' :: rest => dropEscaped isPathCharacter rest
  | text => text

/-- The most that the number after a host may be. -/
def maxHostNumber : Nat := 2147483647

/-- Drops the number after a host, which a colon announces. -/
def dropHostNumber? : List Char → Option (List Char)
  | ':' :: rest =>
      let digits := rest.takeWhile Char.isDigit
      let number := digits.foldl (fun value digit => 10 * value + (digit.toNat - '0'.toNat)) 0
      if digits.isEmpty || maxHostNumber < number then none else some (rest.drop digits.length)
  | text => some text

def dropHost? : List Char → Option (List Char)
  | '[' :: rest =>
      match rest.dropWhile (· != ']') with
      | [] => none
      | _ :: after => some after
  | text => some (dropEscaped isHostCharacter text)

/-- Drops the name of a user with the sign after it, if both come. -/
def dropUser (text : List Char) : List Char :=
  match dropEscaped isUserCharacter text with
  | '@' :: rest => rest
  | _ => text

/-- Drops an authority, with the path that may follow it. -/
def dropAuthority? (text : List Char) : Option (List Char) :=
  (dropHost? (dropUser text) >>= dropHostNumber?).map dropSlashPath

def dropQuery : List Char → List Char
  | '?' :: rest => dropEscaped isQueryCharacter rest
  | text => text

def dropFragment : List Char → List Char
  | '#' :: rest => dropEscaped isFragmentCharacter rest
  | text => text

/-- Whether a text is an authority or a path, with what may follow it. A path is dropped as told. -/
def isComplete (dropPath : List Char → List Char) (text : List Char) : Bool :=
  let rest? :=
    match text with
    | '/' :: '/' :: rest => dropAuthority? rest
    | '/' :: rest => some (dropEscaped isPathCharacter rest)
    | _ => some (dropPath text)
  rest?.any fun rest => (dropFragment (dropQuery rest)).isEmpty

/-- The text after a scheme and its colon, if there is a scheme. -/
def afterScheme? (text : List Char) : Option (List Char) :=
  let scheme := text.takeWhile fun character =>
    character.isAlphanum || "+-.".toList.contains character
  match text.drop scheme.length with
  | ':' :: rest => if scheme.head?.any Char.isAlpha then some rest else none
  | _ => none

def isAbsolute (text : List Char) : Bool :=
  (afterScheme? text).any (isComplete (dropEscaped isPathCharacter))

/-- Whether a text refers to a resource without a scheme. The first segment of its path has no colon. -/
def isRelative (text : List Char) : Bool :=
  isComplete (fun path => dropSlashPath (dropEscaped isPlainCharacter path)) text

def isValid (text : List Char) : Bool := isAbsolute text || isRelative text

end WordStream.Markup.UriReference

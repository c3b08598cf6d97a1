import WordStream.Markup.Name
import WordStream.Markup.Record
import WordStream.Markup.UriReference

/-!
# Scopes of namespaces

A start tag may declare namespaces, for itself and all it holds. Names are written with a qualifier
that stands for a namespace, or without one.
-/

set_option autoImplicit false

namespace WordStream.Markup

/-- The namespaces in force, the innermost declaration first. The empty qualifier stands for names
without one. -/
abbrev Scope := List (String × String)

/-- The namespace that is always bound to `xml`. -/
def xmlSpace : String := "http://www.w3.org/XML/1998/namespace"

/-- The namespace of namespace declarations, which is never bound. -/
def declarationSpace : String := "http://www.w3.org/2000/xmlns/"

/-- A name as written, split at its colon. A name whose colons are out of place counts as a local
name. -/
structure QualifiedName where
  qualifier : String := ""
  localName : String
deriving DecidableEq, Repr

namespace QualifiedName

/-- Whether a text may stand before or after the colon of a name. -/
def isPart (characters : List Char) : Bool :=
  characters.head?.any isNameStart && !characters.contains ':' &&
    (String.ofList characters).utf8ByteSize ≤ maxNameLength

/-- Splits a name at its only colon, if its parts are as they should be. -/
def split? (characters : List Char) : Option QualifiedName :=
  let front := characters.takeWhile (· != ':')
  match characters.drop front.length with
  | [] => if isPart front then some { localName := String.ofList front } else none
  | _ :: back =>
      if isPart front && isPart back then
        some { qualifier := String.ofList front, localName := String.ofList back }
      else none

def ofString (name : String) : QualifiedName :=
  (split? name.toList).getD { localName := name }

def written (name : QualifiedName) : String :=
  if name.qualifier.isEmpty then name.localName else name.qualifier ++ ":" ++ name.localName

/-- The qualifier that an attribute of this name declares, if it declares one. -/
def declared? (name : QualifiedName) : Option String :=
  if name.qualifier = "xmlns" then some name.localName
  else if name.qualifier.isEmpty && name.localName = "xmlns" then some ""
  else none

/-- Whether a name belongs to the namespace of `xml` and is the given one in it. -/
def isXml (name : QualifiedName) (localName : String) : Bool :=
  name.qualifier = "xml" && name.localName = localName

end QualifiedName

namespace Scope

/-- The namespace of the qualifier of an element; none if it is not declared, and the empty one where
no default is. -/
def ofElement? (scope : Scope) (qualifier : String) : Option String :=
  if qualifier = "xml" then some xmlSpace
  else if qualifier.isEmpty then some ((scope.lookup "").getD "")
  else (scope.lookup qualifier).filter fun space => !space.isEmpty

/-- The namespace of the qualifier of an attribute; none if it is not declared. The default namespace
is not for attributes, which have the empty one without a qualifier. -/
def ofAttribute? (scope : Scope) (qualifier : String) : Option String :=
  if qualifier = "xml" then some xmlSpace
  else if qualifier.isEmpty then some ""
  else scope.lookup qualifier

/-- The expanded name of an attribute. A qualifier may be declared to stand for the empty
namespace. -/
def attributeName? (scope : Scope) (name : QualifiedName) : Option String :=
  (scope.ofAttribute? name.qualifier).map fun space =>
    if space.isEmpty && !name.qualifier.isEmpty then "\x7b\x7d" ++ name.localName
    else joinName space name.localName

/-- Notes what is wrong with the text that names a namespace. The default one should be named by a
whole reference. -/
def checkReference (qualifier space : String) : Reader Unit := do
  let text := space.toList
  if !UriReference.isValid text then Reader.fault
  else if qualifier.isEmpty && !UriReference.isAbsolute text then Reader.warn

/-- Takes the declaration of a namespace over, unless it is not allowed. No qualifier is declared twice
in a tag. -/
def declare (spaces : Scope) (qualifier space : String) : Reader Scope := do
  let bind : Reader Scope := do
    guard (spaces.lookup qualifier).isNone
    return (qualifier, space) :: spaces
  let refuse : Reader Scope := do
    Reader.fault
    return spaces
  if qualifier.isEmpty then
    if space.isEmpty then bind
    else
      checkReference qualifier space
      if space = xmlSpace || space = declarationSpace then refuse else bind
  else if qualifier = "xml" then
    Reader.require (space = xmlSpace)
    return spaces
  else if qualifier = "xmlns" || space.isEmpty || space = xmlSpace || space = declarationSpace then
    refuse
  else
    checkReference qualifier space
    bind

end Scope

end WordStream.Markup

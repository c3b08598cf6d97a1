import WordStream.Markup.Entity
import WordStream.Markup.Scan
import WordStream.Markup.Scope

/-!
# Start tags

Resolving a start tag expands its name and those of its attributes. Faults of namespaces are noted
but do not stop it: a qualifier without a declaration is left out of account, and a declaration that
is not allowed declares nothing.
-/

set_option autoImplicit false

namespace WordStream.Markup

/-- Takes a name with its qualifier. A name whose colons are out of place is taken as a whole, with a
carriage return that stands before a line feed behind it. -/
def qualifiedName : Scan QualifiedName := do
  let characters ← Scan.takeWhile isNamePart
  match QualifiedName.split? characters with
  | some name => return name
  | none =>
      guard (characters.head?.all isNameStart)
      let broken ← Scan.at? "\r\n"
      if broken then Scan.exact "\r"
      guard (broken || !characters.isEmpty)
      guard ((String.ofList characters).utf8ByteSize ≤ maxNameLength)
      Reader.fault
      return { localName := String.ofList (if broken then characters ++ ['\r'] else characters) }

/-- An attribute with its value, in which references to entities are kept. -/
structure Attribute where
  name : QualifiedName
  value : List Char
deriving DecidableEq, Repr

/-- A start tag as written. -/
structure StartTag where
  name : QualifiedName
  /-- The attributes that declare no namespaces. -/
  attributes : List Attribute
  spaces : Scope
  closed : Bool
deriving DecidableEq, Repr

namespace StartTag

/-- The values of an attribute that tells how space is handled. -/
def spaceValues : List String := ["default", "preserve"]

/-- Takes one more attribute, if another one follows. The attributes taken so far are held in
reverse. -/
def nextAttribute (declarations : Declarations) (depth : Nat) (element : QualifiedName)
    (done : List Attribute × Scope) : Scan (Option (List Attribute × Scope)) := do
  let (attributes, spaces) := done
  let separated ← Scan.someSpaceTaken
  if (← Scan.at? ">") || (← Scan.at? "/>") then return none
  guard separated
  let name ← qualifiedName
  Scan.space
  Scan.exact "="
  Scan.space
  let literal ← Scan.quoted
  let form := if name.declared?.isSome then ValueForm.resolved else .kept
  let value ← declarations.attributeValue depth form literal
  let type := match declarations.rule? element.written name.written with
    | some rule => rule.type
    | none => AttributeType.cdata
  let value := type.normalize value
  match name.declared? with
  | some qualifier =>
      return some (attributes, ← Scope.declare spaces qualifier (String.ofList value))
  | none =>
      if name.isXml "space" && !spaceValues.contains (String.ofList value) then Reader.warn
      return some ({ name, value } :: attributes, spaces)

/-- Takes a start tag after its opening bracket. Entities in its values may be nested as deeply as
given. -/
def scan (declarations : Declarations) (depth : Nat) : Scan StartTag := do
  let name ← qualifiedName
  let (attributes, spaces) ← Scan.repeating (nextAttribute declarations depth name) ([], [])
  let closed ← Scan.taken "/"
  Scan.exact ">"
  return { name, attributes := attributes.reverse, spaces, closed }

end StartTag

/-- A start tag with what its names stand for. -/
structure ResolvedTag where
  name : QualifiedName
  /-- The namespace of the element; none if its qualifier is not declared. -/
  space : Option String
  attributes : List Attribute
  /-- The attributes that are declared to be there though they are not written. -/
  defaults : List Attribute
  scope : Scope
deriving DecidableEq, Repr

namespace StartTag

def declaredAttributes (declarations : Declarations) (tag : StartTag) : List Attribute :=
  declarations.rules.filterMap fun rule => do
    guard (rule.element == tag.name.written)
    return { name := .ofString rule.name, value := ← rule.default }

def payForDefault (entry : Attribute) : Reader Unit :=
  Reader.pay (entry.name.qualifier.utf8ByteSize + entry.name.localName.utf8ByteSize +
    byteCount entry.value)

/-- Adds the namespaces that are declared for a tag without being written in it. -/
def addDefaultSpaces (spaces : Scope) : List Attribute → Reader Scope
  | [] => return spaces
  | entry :: others => do
      match entry.name.declared? with
      | none => addDefaultSpaces spaces others
      | some qualifier =>
          payForDefault entry
          if (spaces.lookup qualifier).isSome then addDefaultSpaces spaces others
          else addDefaultSpaces ((qualifier, String.ofList entry.value) :: spaces) others

/-- The names of attributes that were met: what each stands for, with its qualifier. -/
abbrev Met := List ((String × String) × String)

/-- Whether names occur twice that should not: of two attributes for one name, those with one qualifier
are refused and others are faults, which are counted. Names without a namespace count as told. -/
def checkNames (scope : Scope) : (met : Met) → (faults : Nat) → List Attribute →
    Reader (Met × Nat)
  | met, faults, [] => return (met, faults)
  | met, faults, entry :: others => do
      let name := entry.name
      match scope.ofAttribute? name.qualifier with
      | none => checkNames scope met faults others
      | some space =>
          match met.lookup (space, name.localName) with
          | none =>
              checkNames scope (((space, name.localName), name.qualifier) :: met) faults others
          | some qualifier =>
              guard (qualifier != name.qualifier)
              Reader.fault
              checkNames scope met (faults + 1) others

/-- The attributes that are there though they are not written. One that is written holds before
them. -/
def addDefaults (scope : Scope) (met : Met) : List Attribute → Reader (List Attribute)
  | [] => return []
  | entry :: others => do
      let name := entry.name
      if name.declared?.isSome then addDefaults scope met others
      else
        payForDefault entry
        let space := scope.ofAttribute? name.qualifier
        Reader.require space.isSome
        let key := (space.getD "", name.localName)
        match met.lookup key with
        | some qualifier =>
            if qualifier = name.qualifier then addDefaults scope met others
            else
              Reader.fault
              return entry :: (← addDefaults scope met others)
        | none => return entry :: (← addDefaults scope ((key, name.qualifier) :: met) others)

def resolve (declarations : Declarations) (outer : Scope) (tag : StartTag) :
    Reader ResolvedTag := do
  let declared := tag.declaredAttributes declarations
  let scope := (← addDefaultSpaces tag.spaces declared) ++ outer
  tag.attributes.forM fun entry =>
    Reader.require (scope.ofAttribute? entry.name.qualifier).isSome
  let (met, faults) ← checkNames scope [] 0 tag.attributes
  guard (faults ≤ 1 || (tag.attributes.map fun entry => entry.name.written).Nodup)
  let defaults ← addDefaults scope met declared
  let space := scope.ofElement? tag.name.qualifier
  Reader.require space.isSome
  return { name := tag.name, space, attributes := tag.attributes, defaults, scope }

end StartTag

end WordStream.Markup

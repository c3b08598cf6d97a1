import WordStream.Markup.Record
import WordStream.Markup.Reference

/-!
# Entities

What a document declares, and what its references then stand for in the value of an attribute.
-/

set_option autoImplicit false

namespace WordStream.Markup

/-- What the name of an entity stands for. -/
inductive Entity where
  | text (replacement : List Char)
  /-- Text kept elsewhere, which is never fetched. -/
  | external
  /-- Data that is not text. -/
  | unparsed
deriving DecidableEq, Repr

inductive AttributeType where
  | cdata
  | id
  | idref
  | idrefs
  | entity
  | entities
  | nmtoken
  | nmtokens
  | enumeration
  /-- One of the names of formats that are listed. -/
  | format
deriving DecidableEq, Repr

structure AttributeRule where
  element : String
  name : String
  type : AttributeType
  /-- The value that holds where none is written. -/
  default : Option (List Char)
deriving DecidableEq, Repr

/-- The declarations of a document. Of two declarations for a name the first one holds. -/
structure Declarations where
  entities : List (String × Entity) := []
  /-- The entities that stand for declarations; those kept elsewhere have no text. -/
  parameters : List (String × Option (List Char)) := []
  rules : List AttributeRule := []
  elements : List String := []
  formats : List String := []
  /-- Whether there may be declarations that were not read. -/
  incomplete : Bool := false
  standalone : Bool := false
deriving DecidableEq, Repr

namespace Declarations

def addEntity (declarations : Declarations) (name : String) (entity : Entity) : Declarations :=
  { declarations with entities := declarations.entities ++ [(name, entity)] }

def addParameter (declarations : Declarations) (name : String) (text : Option (List Char)) :
    Declarations :=
  { declarations with parameters := declarations.parameters ++ [(name, text)] }

def rule? (declarations : Declarations) (element name : String) : Option AttributeRule :=
  declarations.rules.find? fun rule => rule.element == element && rule.name == name

/-- Declares an attribute, unless it is declared. -/
def addRule (declarations : Declarations) (rule : AttributeRule) : Declarations :=
  if (declarations.rule? rule.element rule.name).isSome then declarations
  else { declarations with rules := declarations.rules ++ [rule] }

/-- Whether an entity without a declaration may be passed over. -/
def forgives (declarations : Declarations) : Bool :=
  declarations.incomplete && !declarations.standalone

/-- Passes an entity without a declaration over, if that is allowed. -/
def passOver (declarations : Declarations) : Reader Unit := do
  guard declarations.forgives
  Reader.warn

end Declarations

def maxNesting : Nat := 19

/-- How references are written in the value of an attribute. -/
inductive ValueForm where
  | resolved
  /-- References to entities stay, and an ampersand is given by its code. -/
  | kept
deriving DecidableEq, Repr

namespace ValueForm

def character (form : ValueForm) (character : Char) : List Char :=
  if form = kept ∧ character = '&' then "&#38;".toList else [character]

def entity (form : ValueForm) (name : String) (value : List Char) : List Char :=
  match form with
  | resolved => value
  | kept => '&' :: name.toList ++ [';']

end ValueForm

def byteCount (text : List Char) : Nat := (String.ofList text).utf8ByteSize

namespace Declarations

/-- The value of one piece of a literal. The value of what an entity stands for is given. White space
becomes spaces unless its code is given, and no less-than sign may stand in the literal. -/
def pieceValue (declarations : Declarations) (expand : List Char → Reader (List Char))
    (form : ValueForm) : Piece → Reader (List Char)
  | .plain character =>
      if character = '<' then failure
      else return [if isSpace character then ' ' else character]
  | .reference (.code character) | .reference (.predefined _ character) =>
      return form.character character
  | .reference (.entity name) =>
      match declarations.entities.lookup name with
      | some (.text replacement) => return form.entity name (← expand replacement)
      | some .external | some .unparsed => failure
      | none => do
          declarations.passOver
          return []

def literalValue (declarations : Declarations) (expand : List Char → Reader (List Char))
    (form : ValueForm) (literal : List Char) : Reader (List Char) := do
  let pieces ← liftM (Piece.ofText? literal)
  return (← pieces.mapM (declarations.pieceValue expand form)).flatten

/-- The value of what an entity stands for, in which entities may be nested as deeply as given. -/
def entityValue (declarations : Declarations) : (depth : Nat) → List Char → Reader (List Char)
  | 0, _ => failure
  | depth + 1, replacement => do
      Reader.pay (byteCount replacement)
      declarations.literalValue (entityValue declarations depth) .resolved replacement

def attributeValue (declarations : Declarations) (depth : Nat) (form : ValueForm)
    (literal : List Char) : Reader (List Char) :=
  declarations.literalValue (declarations.entityValue depth) form (unifyLines literal)

/-- The text of a value in which references to entities were kept. What the entities stand for is
given as it is. -/
def expandKept (declarations : Declarations) : (depth : Nat) → (value : List Char) → List Char
  | 0, value => value
  | depth + 1, value =>
      ((Piece.ofText? value).getD []).flatMap fun piece =>
        match piece with
        | .plain character => [character]
        | .reference (.code character) | .reference (.predefined _ character) => [character]
        | .reference (.entity name) =>
            match declarations.entities.lookup name with
            | some (.text replacement) => expandKept declarations depth replacement
            | some .external | some .unparsed | none => []

end Declarations

/-- Leaves one space between tokens and none around them. -/
def joinTokens (value : List Char) : List Char :=
  let tokens := (value.splitOn ' ').filter (!·.isEmpty)
  [' '].intercalate tokens

namespace AttributeType

/-- Whether the values of a type are tokens, between which one space is as good as many. -/
def isTokens (type : AttributeType) : Bool := type != cdata

def normalize (type : AttributeType) (value : List Char) : List Char :=
  if type.isTokens then joinTokens value else value

def allows (type : AttributeType) (value : List Char) : Bool :=
  let tokens := value.splitOn ' '
  let isToken := fun token : List Char => !token.isEmpty && token.all isNamePart
  match type with
  | cdata => true
  | id | idref | entity | format => isName value
  | idrefs | entities => tokens.all isName
  | nmtoken => isToken value
  | nmtokens | enumeration => tokens.all isToken

end AttributeType

end WordStream.Markup

import WordStream.Markup.Entity
import WordStream.Markup.Scan

/-!
# Document types

A document type may hold declarations of elements, attributes, entities and notations. All are
checked for their form; those are kept that later parts of the document need. Nothing is fetched
from elsewhere.
-/

set_option autoImplicit false

namespace WordStream.Markup

/-- Takes a comment after its opening mark. Two dashes may only stand at its end. -/
def comment : Scan Unit := do
  let text ← Scan.upTo "--"
  Scan.exact ">"
  guard (text.all isDocumentCharacter)

/-- The names of processing instructions that may begin with `xml`. -/
def knownInstructions : List String := ["xml-stylesheet", "xml-model"]

/-- Notes what is wrong with a name that should have no colon. -/
def requirePlain (name : String) : Reader Unit :=
  Reader.require !(name.toList.contains ':')

/-- Checks the name of a processing instruction. Names that begin with `xml` are reserved. -/
def checkInstruction (name : String) : Reader Unit := do
  let lower := name.map Char.toLower
  guard (lower != "xml")
  if !knownInstructions.contains name then
    if "xml".toList.isPrefixOf lower.toList then Reader.warn
    requirePlain name

def instruction : Scan Unit := do
  let name ← Scan.name
  checkInstruction name
  if !(← Scan.taken "?>") then
    Scan.someSpace
    let text ← Scan.upTo "?>"
    guard (text.all isDocumentCharacter)

namespace Doctype

def literal (accept : Char → Bool) : Scan (List Char) := do
  let text ← Scan.quoted
  guard (text.all accept)
  return text

def isPublicCharacter (character : Char) : Bool :=
  character.isAlphanum || " \n\r-'()+,./:=?;!*#@$_%".toList.contains character

/-- Takes the place of something that is kept elsewhere, if one is given. -/
def externalPlace? : Scan (Option (List Char)) := do
  if ← Scan.taken "SYSTEM" then
    Scan.someSpace
    return some (← literal isDocumentCharacter)
  else if ← Scan.taken "PUBLIC" then
    Scan.someSpace
    discard (literal isPublicCharacter)
    Scan.someSpace
    return some (← literal isDocumentCharacter)
  else return none

def close : Scan Unit := do
  Scan.space
  Scan.exact ">"

/-- The text of an entity: codes of characters are replaced and names of entities stay. -/
def entityText? (text : List Char) : Option (List Char) :=
  (Piece.ofText? text).map fun pieces =>
    pieces.flatMap fun piece =>
      match piece with
      | .plain character | .reference (.code character) => [character]
      | .reference (.predefined name _) | .reference (.entity name) =>
          '&' :: name.toList ++ [';']

def parameterName? (text : List Char) : Option String :=
  let name := (text.drop 1).takeWhile (· != ';')
  if isName name && name.length + 1 < text.length then some (String.ofList name) else none

/-- The text that the literal of an entity gives. It ends before a name that stands for declarations,
which must not be known. -/
def entityLiteral (declarations : Declarations) (written : List Char) :
    Reader (List Char × Declarations) := do
  guard (written.all isDocumentCharacter)
  let literal := unifyLines written
  let front := literal.takeWhile (· != '%')
  let text ← liftM (entityText? front)
  let rest := literal.drop front.length
  if rest.isEmpty then return (text, declarations)
  let name ← liftM (parameterName? rest)
  guard ((declarations.parameters.lookup name).isNone && !declarations.standalone)
  Reader.warn
  return (text, { declarations with incomplete := true })

def twoDigits (base code : Nat) : List Char :=
  [Nat.digitChar (code / base), Nat.digitChar (code % base)]

/-- Whether a text may be declared for the predefined name of a character. -/
def redeclares (character : Char) (text : List Char) : Bool :=
  let code := character.toNat
  (text = [character] && character != '<' && character != '&') ||
    text = "&#".toList ++ twoDigits 10 code ++ [';'] ||
    text.map Char.toLower = "&#x".toList ++ twoDigits 16 code ++ [';']

/-- Declares an entity. A predefined name keeps its character; to declare another one for it is a
reason to warn. -/
def declareEntity (declarations : Declarations) (name : String) (entity : Entity) :
    Reader Declarations := do
  match Reference.predefinedNames.lookup name, entity with
  | some character, .text text => if !redeclares character text then Reader.warn
  | some _, _ => Reader.warn
  | none, _ => pure ()
  return declarations.addEntity name entity

def entity (declarations : Declarations) : Scan Declarations := do
  Scan.someSpace
  let parameter ← Scan.taken "%"
  if parameter then Scan.someSpace
  let name ← Scan.name
  requirePlain name
  Scan.someSpace
  match ← externalPlace? with
  | some place =>
      guard (!place.contains '#')
      if parameter then
        close
        return declarations.addParameter name none
      let separated ← Scan.someSpaceTaken
      if separated && (← Scan.taken "NDATA") then
        Scan.someSpace
        let format ← Scan.takeWhile isNamePart
        guard (format.isEmpty || isName format)
        close
        declareEntity declarations name .unparsed
      else
        close
        declareEntity declarations name .external
  | none =>
      let (text, declarations) ← entityLiteral declarations (← Scan.quoted)
      close
      if parameter then return declarations.addParameter name (some text)
      else declareEntity declarations name (.text text)

/-- Takes the mark that tells how often a part of an element comes. -/
def occurrence : Scan Unit := do
  if ← Scan.taken "?" then return
  if ← Scan.taken "*" then return
  discard (Scan.taken "+")

def group : (depth : Nat) → Scan Unit
  | 0 => failure
  | depth + 1 => do
      let part : Scan Unit := do
        Scan.space
        if ← Scan.taken "(" then group depth else discard Scan.name
        occurrence
        Scan.space
      part
      let separator := if ← Scan.at? "|" then "|" else ","
      Scan.many (Scan.taken separator) part
      Scan.exact ")"

def maxGroupDepth : Nat := 256

/-- Takes what an element may hold: nothing, anything, text with elements, or a group of parts. -/
def contentModel : Scan Unit := do
  if ← Scan.taken "EMPTY" then return
  if ← Scan.taken "ANY" then return
  Scan.exact "("
  Scan.space
  if ← Scan.taken "#PCDATA" then
    Scan.space
    let mixed ← Scan.at? "|"
    Scan.many (Scan.taken "|") do
      Scan.space
      discard Scan.name
      Scan.space
    Scan.exact ")"
    if mixed then Scan.exact "*" else discard (Scan.taken "*")
  else
    group maxGroupDepth
    occurrence

/-- Takes the declaration of an element after its keyword. No element is declared twice. -/
def element (declarations : Declarations) : Scan Declarations := do
  Scan.someSpace
  let name ← Scan.name
  Scan.someSpace
  contentModel
  close
  Reader.require !(declarations.elements.contains name)
  return { declarations with elements := name :: declarations.elements }

/-- Takes a list of alternatives after its opening parenthesis. None should be listed twice. -/
def alternatives (item : Scan String) : Scan Unit := do
  let next := fun listed : List String => do
    Scan.space
    let name ← item
    Reader.require !(listed.contains name)
    Scan.space
    return name :: listed
  let first ← next []
  discard (Scan.repeating
    (fun listed => do if ← Scan.taken "|" then some <$> next listed else return none) first)
  Scan.exact ")"

/-- The types of attributes with a keyword of their own, the longer keyword first where one begins
like another. -/
def typeKeywords : List (String × AttributeType) :=
  [("CDATA", .cdata), ("IDREFS", .idrefs), ("IDREF", .idref), ("ID", .id), ("ENTITY", .entity),
   ("ENTITIES", .entities), ("NMTOKENS", .nmtokens), ("NMTOKEN", .nmtoken)]

def takenAny? {α : Type} : List (String × α) → Scan (Option α)
  | [] => return none
  | (keyword, value) :: others => do
      if ← Scan.taken keyword then return some value else takenAny? others

/-- Takes a name token, which unlike a name may begin with any character of names. -/
def nameToken : Scan String := do
  let token ← Scan.takeWhile isNamePart
  guard (!token.isEmpty)
  return String.ofList token

def attributeType : Scan AttributeType := do
  match ← takenAny? typeKeywords with
  | some type => return type
  | none =>
      if ← Scan.taken "NOTATION" then
        Scan.someSpace
        Scan.exact "("
        alternatives Scan.name
        return .format
      else
        Scan.exact "("
        alternatives nameToken
        return .enumeration

/-- Takes what is declared for the absence of an attribute, and gives its value if it has one. -/
def defaultValue (declarations : Declarations) (depth : Nat) (type : AttributeType) :
    Scan (Option (List Char)) := do
  if ← Scan.taken "#REQUIRED" then return none
  if ← Scan.taken "#IMPLIED" then return none
  if ← Scan.taken "#FIXED" then Scan.someSpace
  let value ← declarations.attributeValue depth .kept (← Scan.quoted)
  return some (type.normalize value)

/-- Checks the declaration of an attribute, and adds it unless the attribute is declared. A default
has to be of the type, `xml:id` has to be an identity, and an element has one identity at most. -/
def declareAttribute (declarations : Declarations) (rule : AttributeRule) :
    Reader Declarations := do
  Reader.require (rule.name != "xml:id" || rule.type = .id)
  Reader.require (rule.default.all rule.type.allows)
  if (declarations.rule? rule.element rule.name).isSome then Reader.warn
  else
    Reader.require (rule.type != .id ||
      !declarations.rules.any fun other => other.element == rule.element && other.type = .id)
  return declarations.addRule rule

/-- Takes the declaration of one attribute of an element, if another one follows. -/
def attributeRule (depth : Nat) (element : String) (declarations : Declarations) :
    Scan (Option Declarations) := do
  let separated ← Scan.someSpaceTaken
  if ← Scan.taken ">" then return none
  guard separated
  let name ← Scan.name
  Scan.someSpace
  let type ← attributeType
  Scan.someSpace
  let default ← defaultValue declarations depth type
  return some (← declareAttribute declarations { element, name, type, default })

/-- Takes the declaration of a format after its keyword. No format is declared twice. -/
def format (declarations : Declarations) : Scan Declarations := do
  Scan.someSpace
  let name ← Scan.name
  requirePlain name
  Scan.someSpace
  if ← Scan.taken "SYSTEM" then
    Scan.someSpace
    discard (literal isDocumentCharacter)
  else
    Scan.exact "PUBLIC"
    Scan.someSpace
    discard (literal isPublicCharacter)
    let separated ← Scan.someSpaceTaken
    if !(← Scan.at? ">") then
      guard separated
      discard (literal isDocumentCharacter)
  close
  Reader.require !(declarations.formats.contains name)
  return { declarations with formats := name :: declarations.formats }

/-- Takes one declaration, comment or processing instruction. An opening mark that opens nothing is
passed over. Where entities may not be nested more deeply, none can be declared. -/
def declaration (depth : Nat) (declarations : Declarations) : Scan Declarations := do
  if ← Scan.taken "<!ENTITY" then
    guard (0 < depth)
    entity declarations
  else if ← Scan.taken "<!ATTLIST" then
    Scan.someSpace
    Scan.repeating (attributeRule depth (← Scan.name)) declarations
  else if ← Scan.taken "<!ELEMENT" then element declarations
  else if ← Scan.taken "<!NOTATION" then format declarations
  else
    if ← Scan.taken "<!--" then comment
    else if !(← Scan.taken "<!") then
      Scan.exact "<?"
      instruction
    return declarations

/-- Takes a reference to an entity that stands for declarations, after its percent sign. The
declarations that the entity stands for are read as given. Without a text it leaves the declarations
incomplete. -/
def parameter (expand : Declarations → Scan Declarations) (declarations : Declarations) :
    Scan Declarations := do
  let name ← Scan.name
  Scan.exact ";"
  let incomplete := { declarations with incomplete := true }
  match declarations.parameters.lookup name with
  | some (some text) =>
      Reader.pay (byteCount text)
      let (extended, left) ← (expand incomplete).run text
      guard left.isEmpty
      return extended
  | some none => return incomplete
  | none =>
      incomplete.passOver
      return incomplete

/-- Takes one more declaration, or a reference to an entity that stands for declarations, unless a closing
bracket or the end of the text comes next. -/
def nextDeclaration (depth : Nat) (refer : Declarations → Scan Declarations)
    (declarations : Declarations) : Scan (Option Declarations) := do
  Scan.space
  match ← Scan.next? with
  | none | some ']' => return none
  | some '%' => do
      Scan.exact "%"
      some <$> refer declarations
  | some _ => some <$> declaration depth declarations

/-- Takes declarations up to a closing bracket or the end of the text. Entities may be nested as
deeply as given. -/
def declarationsWithin : (depth : Nat) → Declarations → Scan Declarations
  | 0, declarations => Scan.repeating (nextDeclaration 0 fun _ => failure) declarations
  | depth + 1, declarations =>
      Scan.repeating (nextDeclaration (depth + 1) (parameter (declarationsWithin depth))) declarations

def subset (declarations : Declarations) : Scan Declarations := do
  Scan.exact "["
  let extended ← declarationsWithin maxNesting declarations
  Scan.exact "]"
  close
  return extended

/-- Takes a document type after its opening mark, up to its end or to the declarations in it. Tells
whether there are such. -/
def head (declarations : Declarations) : Scan (Declarations × Bool) := do
  Scan.someSpace
  discard Scan.name
  Scan.space
  let incomplete := (← externalPlace?).isSome
  Scan.space
  let declared := { declarations with incomplete }
  if ← Scan.at? "[" then return (declared, true)
  else
    Scan.exact ">"
    return (declared, false)

end Doctype

end WordStream.Markup

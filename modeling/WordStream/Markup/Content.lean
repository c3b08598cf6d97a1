import WordStream.Markup.Doctype
import WordStream.Markup.StartTag
import WordStream.Markup.Stretch

/-!
# Content

The content of a document, of an element or of an entity is a sequence of parts: tags, stretches of
text, references, literal sections, comments and processing instructions. Reading it gives the calls
that tell its elements and texts in order. Comments and processing instructions are not told.
-/

set_option autoImplicit false

namespace WordStream.Markup

/-- The two ways to read a document. -/
inductive Mode where
  /-- As it arrives. References to entities stay in the values of attributes, and what an entity
  stands for is told wherever it is used. -/
  | streaming
  /-- As a whole. Every reference in a value is replaced, and what an entity stands for in the content
  is checked where it is first used, but not told. -/
  | loading
deriving DecidableEq, Repr

/-- An element that is open. -/
structure Element where
  name : QualifiedName
  tag : String
  scope : Scope
deriving DecidableEq, Repr

/-- What stays fixed while content is read. -/
structure Setting where
  mode : Mode
  declarations : Declarations
  scope : Scope := []
  /-- What is open around the content: elements, and the entities that they are in. -/
  depth : Nat := 0
  inEntity : Bool := false
  /-- How deeply entities may be nested in the content. -/
  nesting : Nat := maxNesting

/-- Content that is being read. -/
structure Progress where
  /-- The elements that the content has opened, the innermost first. -/
  elements : List Element := []
  /-- The calls, the last one first. -/
  calls : List Call := []
deriving DecidableEq, Repr

namespace Progress

def tell (progress : Progress) (call : Call) : Progress :=
  { progress with calls := call :: progress.calls }

def scope (progress : Progress) (setting : Setting) : Scope :=
  match progress.elements with
  | [] => setting.scope
  | element :: _ => element.scope

end Progress

namespace ResolvedTag

/-- The name of the element as a mode tells it. A qualifier that is not declared belongs to the name in
a document that is loaded. -/
def tag (tag : ResolvedTag) (mode : Mode) : String :=
  match tag.space, mode with
  | some space, _ => joinName space tag.name.localName
  | none, .streaming => tag.name.localName
  | none, .loading => tag.name.written

def attributeName (tag : ResolvedTag) (mode : Mode) (name : QualifiedName) : String :=
  match tag.scope.attributeName? name, mode with
  | some found, _ => found
  | none, .streaming => name.localName
  | none, .loading => name.written

/-- The attributes of the element as a mode tells them. Those that are not written belong to a document
that is loaded. -/
def told (tag : ResolvedTag) (setting : Setting) : Attributes :=
  let entries :=
    match setting.mode with
    | .streaming => tag.attributes
    | .loading => tag.attributes ++ tag.defaults
  let text := fun value : List Char =>
    match setting.mode with
    | .streaming => value
    | .loading => setting.declarations.expandKept (maxNesting + 1) value
  .ofList <| entries.map fun entry =>
    (tag.attributeName setting.mode entry.name, String.ofList (text entry.value))

def isIdentity (tag : ResolvedTag) (declarations : Declarations) (name : QualifiedName) : Bool :=
  name.isXml "id" ||
    (tag.scope.ofAttribute? name.qualifier).isSome &&
      (declarations.rule? tag.name.written name.written).any fun rule => rule.type = .id

/-- Whether no entity is used in a value in which references to entities are kept. -/
def isClosed (value : List Char) : Bool :=
  (Piece.ofText? value).any fun pieces =>
    pieces.all fun piece =>
      match piece with
      | .reference (.entity _) => false
      | .reference _ | .plain _ => true

/-- Notes the identity that an attribute gives its element. No two elements have the same one, and
`xml:id` gives a name. -/
def noteIdentity (tag : ResolvedTag) (declarations : Declarations) (entry : Attribute) :
    Reader Unit := do
  if tag.isIdentity declarations entry.name && !entry.value.isEmpty && isClosed entry.value then
    let value := declarations.expandKept 1 entry.value
    if entry.name.isXml "id" then Reader.require (isPlainName (Text.trimWhere isSpace value))
    let id := String.ofList value
    let record ← get
    if record.ids.contains id then Reader.fault
    else set { record with ids := id :: record.ids }

def noteIdentities (tag : ResolvedTag) (declarations : Declarations) : Reader Unit :=
  (tag.attributes ++ tag.defaults).forM (tag.noteIdentity declarations)

end ResolvedTag

namespace Content

/-- The most that may be open in a document that is loaded, and where an element opens in an entity. -/
def maxDepth : Nat := 256

def depthAt (setting : Setting) (progress : Progress) : Nat :=
  setting.depth + progress.elements.length

/-- Whether one more element may open at the place reached. A document that arrives may be nested as
deeply as it likes, save in its entities. -/
def mayOpen (setting : Setting) (progress : Progress) : Bool :=
  match setting.mode with
  | .loading => depthAt setting progress < maxDepth
  | .streaming => !setting.inEntity || depthAt setting progress ≤ maxDepth

def startTag (setting : Setting) (progress : Progress) : Scan Progress := do
  guard (mayOpen setting progress)
  let written ← StartTag.scan setting.declarations setting.nesting
  let resolved ← written.resolve setting.declarations (progress.scope setting)
  if setting.mode = .loading && !setting.inEntity then
    resolved.noteIdentities setting.declarations
  let tag := resolved.tag setting.mode
  let opened := progress.tell (.start tag (resolved.told setting))
  if written.closed then return opened.tell (.finish tag)
  else
    let element := { name := written.name, tag, scope := resolved.scope }
    return { opened with elements := element :: progress.elements }

/-- Takes the end tag of the innermost element after its opening mark. -/
def endTag (element : Element) (outer : List Element) (progress : Progress) : Scan Progress := do
  Scan.exact element.name.written
  Scan.space
  Scan.exact ">"
  return { progress.tell (.finish element.tag) with elements := outer }

def literalSection (progress : Progress) : Scan Progress := do
  let text ← Scan.upTo "]]>"
  guard (text.all isDocumentCharacter)
  return progress.tell (.data (String.ofList (unifyLines text)))

def stretch (final : Bool) (progress : Progress) : Scan Progress := do
  let pieces ← Stretch.scan final
  return { progress with calls := pieces.map .data ++ progress.calls }

/-- What reads the text that an entity stands for. -/
abbrev Expansion := Setting → List Char → Reader Progress

def expandTold (expansion : Expansion) (setting : Setting) (progress : Progress)
    (replacement : List Char) : Reader Progress := do
  Reader.pay (byteCount replacement)
  let inner : Setting :=
    { setting with
      scope := progress.scope setting
      depth := depthAt setting progress + 1
      inEntity := true }
  let read ← expansion inner replacement
  return { progress with calls := read.calls ++ progress.calls }

/-- Reads what an entity stands for in a document that is loaded. No namespaces are in force there, and
later uses only cost what the first one did. -/
def expandOnce (expansion : Expansion) (setting : Setting) (progress : Progress) (name : String)
    (replacement : List Char) : Reader Unit := do
  let record ← get
  match record.costs.lookup name with
  | some cost => Reader.pay cost
  | none =>
      guard (mayOpen setting progress)
      Reader.pay (byteCount replacement)
      let inner : Setting :=
        { setting with
          scope := []
          depth := depthAt setting progress + 1
          inEntity := true }
      discard (expansion inner replacement)
      let cost := (← get).spent - record.spent - Reader.useCost
      modify fun record => { record with costs := (name, cost) :: record.costs }

def reference (expansion : Expansion) (setting : Setting) (progress : Progress) :
    Scan Progress := do
  match ← liftM (Reference.ofBody? (← Scan.upTo ";")) with
  | .code character | .predefined _ character =>
      return progress.tell (.data (String.singleton character))
  | .entity name =>
      match setting.declarations.entities.lookup name, setting.mode with
      | some (.text replacement), .streaming =>
          expandTold expansion setting progress replacement
      | some (.text replacement), .loading =>
          expandOnce expansion setting progress name replacement
          return progress
      | some .external, _ => return progress
      | some .unparsed, _ => failure
      | none, _ =>
          setting.declarations.passOver
          return progress

/-- Takes one more part of content that has arrived as a whole. The content ends with its text, or
before an end tag of an element that it has not opened. -/
def part (expansion : Expansion) (setting : Setting) (progress : Progress) :
    Scan (Option Progress) := do
  if (← Scan.rest).isEmpty then return none
  else if ← Scan.at? "</" then
    match progress.elements with
    | [] => return none
    | element :: outer => do
        Scan.exact "</"
        some <$> endTag element outer progress
  else if ← Scan.taken "<!--" then
    comment
    return some progress
  else if ← Scan.taken "<![CDATA[" then some <$> literalSection progress
  else if ← Scan.taken "<?" then
    instruction
    return some progress
  else if ← Scan.taken "<" then some <$> startTag setting progress
  else if ← Scan.taken "&" then some <$> reference expansion setting progress
  else some <$> stretch true progress

/-- Takes content, which has to close all elements that it opens. -/
def scan (expansion : Expansion) (setting : Setting) : Scan Progress := do
  let progress ← Scan.repeating (part expansion setting) {}
  guard progress.elements.isEmpty
  return progress

/-- Reads the text that an entity stands for as content of its own. In a text with faults an end tag
that closes nothing ends the content. -/
def expand : (depth : Nat) → Expansion
  | 0, _, _ => failure
  | depth + 1, setting, replacement => do
      let (progress, left) ← (scan (expand depth) { setting with nesting := depth }).run replacement
      guard (left.isEmpty || (← Reader.isFaulty))
      return progress

/-- Takes one more part of content in which entities may be nested as deeply as the setting tells. -/
def nextPart (setting : Setting) (progress : Progress) : Scan (Option Progress) :=
  part (expand setting.nesting) setting progress

end Content

end WordStream.Markup

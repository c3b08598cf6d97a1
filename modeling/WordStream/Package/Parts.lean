import WordStream.Archive.Member
import WordStream.Body.Part
import WordStream.Failure
import WordStream.Package.Relationships
import WordStream.Text.DecimalDigit

/-!
# Parts of a package

A package is an archive whose members are parts. Its own relationships lead to the main document;
headers, footers and notes are known by their names. A part is translated with the targets of its
relationships. Members are unpacked and parts are parsed by libraries.
-/

set_option autoImplicit false

namespace WordStream

/-- The libraries that packages are read with. -/
structure Libraries where
  unpackers : Archive.Unpackers
  parser : Markup.Parser

def Libraries.standard : Libraries where
  unpackers := .standard
  parser := .standard

/-- An archive of parts, and what parses them. -/
structure Package extends Archive where
  parser : Markup.Parser

namespace Package

open Markup (Attributes Call)

def ofBytes (libraries : Libraries) (bytes : ByteArray) : Except Failure Package :=
  ((Archive.ofBytes libraries.unpackers bytes).mapError .archive).map fun archive =>
    { archive with parser := libraries.parser }

def partData? (package : Package) (part : String) : Except Failure (Option ByteArray) :=
  match package.read? part with
  | none => .ok none
  | some data => (data.mapError .archive).map some

def packageRelationships : String := "_rels/.rels"

/-- The main document where no relationship leads to another. -/
def defaultDocument : String := "word/document.xml"

def relationshipsFrom (parser : Markup.Parser) (part : String) (data : ByteArray) :
    Except Failure (List Attributes) :=
  match relationshipsOf? parser data with
  | some relationships => .ok relationships
  | none => .error (.malformedPart part)

def mainDocument (package : Package) : Except Failure String := do
  match ← partData? package packageRelationships with
  | none => return defaultDocument
  | some data =>
      let relationships ← relationshipsFrom package.parser packageRelationships data
      match targetOfType? mainDocumentType relationships with
      | none | some "" => return defaultDocument
      | some target => return String.ofList (target.toList.dropWhile (· == '/'))

/-- The kinds of body parts besides the main document, in the order in which they are listed. -/
inductive Secondary where
  | header
  | footer
  | footnotes
  | endnotes
deriving DecidableEq, Repr

namespace Secondary

def all : List Secondary := [header, footer, footnotes, endnotes]

/-- How the names of a kind begin. -/
def stem : Secondary → String
  | header => "word/header"
  | footer => "word/footer"
  | footnotes => "word/footnotes"
  | endnotes => "word/endnotes"

/-- Whether a number may come before the ending of the names of a kind. -/
def numbered : Secondary → Bool
  | header | footer => true
  | footnotes | endnotes => false

/-- Whether a name names a part of a kind. A line feed may follow the name. -/
def names (kind : Secondary) (name : String) : Bool :=
  match Markup.Scan.dropExact? kind.stem.toList name.toList with
  | none => false
  | some rest =>
      let ending := if kind.numbered then rest.dropWhile Text.isDecimalDigit else rest
      ending = ".xml".toList || ending = ".xml\n".toList

end Secondary

/-- Inserts a name into names that ascend by their code points, unless it is there. -/
def insertName (name : String) : List String → List String
  | [] => [name]
  | first :: others =>
      if name < first then name :: first :: others
      else if name = first then first :: others
      else first :: insertName name others

/-- The members of a kind, each once, ascending by their code points. -/
def secondaryParts (package : Package) (kind : Secondary) : List String :=
  (package.names.filter kind.names).foldr insertName []

theorem mem_insertName {name other : String} {names : List String} :
    other ∈ insertName name names ↔ other = name ∨ other ∈ names := by
  induction names with
  | nil => simp [insertName]
  | cons first others ih =>
      unfold insertName
      split
      · simp
      · split
        · rename_i same
          simp [same]
        · simp only [List.mem_cons, ih]
          exact ⟨fun h => h.elim (.inr ∘ .inl) (.imp_right .inr),
            fun h => h.elim (.inr ∘ .inl) (.imp_right .inr)⟩

theorem mem_secondaryParts {package : Package} {kind : Secondary} {name : String} :
    name ∈ secondaryParts package kind ↔ name ∈ package.names ∧ kind.names name = true := by
  unfold secondaryParts
  rw [← List.mem_filter]
  induction package.names.filter kind.names with
  | nil => simp
  | cons first others ih => simp [mem_insertName, ih]

/-- The body parts of a package: the main document if it is there, then the parts of each kind. -/
def bodyParts (package : Package) : Except Failure (List String) := do
  let main ← mainDocument package
  return (if package.names.contains main then [main] else []) ++
    Secondary.all.flatMap (secondaryParts package)

def readPart (package : Package) (part : String) : Except Failure ByteArray := do
  match ← partData? package part with
  | some data => return data
  | none => throw (.missingPart part [])

/-- The targets of a part's relationships; none if the package has no such file. -/
def readTargets (package : Package) (part : String) : Except Failure Attributes := do
  let name := relationshipsName part
  match ← partData? package name with
  | none => return []
  | some data => return targets (← relationshipsFrom package.parser name data)

/-- What is done before anything of a part is told: the targets of its relationships are looked up, and its
member is opened. -/
def openPart (package : Package) (part : String) : Except Failure (Attributes × Archive.Member) := do
  let relationships ← readTargets package part
  match package.open? part with
  | none => throw (.missingPart part (← bodyParts package))
  | some opened => return (relationships, ← opened.mapError .archive)

/-- The calls that the chunks of a member tell, of which a fault may have ended the reading, and why they
are not all. A malformed beginning is told before that fault. -/
def callsOfChunks (parser : Markup.Parser) (part : String) (chunks : List ByteArray)
    (fault : Option Archive.Fault) : List Call × Option Failure :=
  let fed := parser.feed chunks
  if !fed.accepted then (fed.calls, some (.malformedPart part))
  else
    match fault with
    | some fault => (fed.calls, some (.archive fault))
    | none =>
        let closed := parser.close chunks
        (closed.calls, if closed.accepted then none else some (.malformedPart part))

/-- The calls that a part tells that is open, and why they are not all. -/
def readOpened (settings : Settings) (package : Package) (part : String) (member : Archive.Member) :
    List Call × Option Failure :=
  let (chunks, fault) := member.chunks settings.chunkSize
  callsOfChunks package.parser part chunks fault

/-- What a part of a package tells, and what stays fixed while it is translated: the targets of its
relationships among them. -/
def partCalls (settings : Settings) (package : Package) (part : String) :
    Except Failure (Body.Context × List Call) := do
  let (relationships, member) ← openPart package part
  match readOpened settings package part member with
  | (calls, none) => return (settings.context relationships.get?, calls)
  | (_, some cause) => throw cause

def translatePart (settings : Settings) (policy : Policy) (package : Package) (part : String) :
    Except Failure Body.Session := do
  let (context, calls) ← partCalls settings package part
  return Body.Session.calls context policy {} calls

/-- Renders a part for a sink, and tells why it is not rendered to its end. The sink keeps what it was told
until then. -/
def renderPart {Store : Type} (settings : Settings) (sink : Sink Store) (store : Store)
    (package : Package) (part : String) : Body.Rendition Store × Option Failure :=
  match openPart package part with
  | .error cause => ({ store }, some cause)
  | .ok (relationships, member) =>
      let (calls, failure) := readOpened settings package part member
      (Body.Rendition.calls (settings.context relationships.get?) sink { store } calls, failure)

/-- Translates a part, or the main document if no part is named. -/
def translate (settings : Settings) (policy : Policy) (package : Package) (part? : Option String) :
    Except Failure Body.Session := do
  match part? with
  | some part => translatePart settings policy package part
  | none => translatePart settings policy package (← mainDocument package)

end Package

end WordStream

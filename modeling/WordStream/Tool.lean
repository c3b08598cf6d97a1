import WordStream.Input.Source
import WordStream.Package.Parts

/-!
# Tools

Three tools answer requests about documents: the events of a part, its text, and the body parts. A
tool reports what is wrong with the input, the package or a part as an error of its own, with an
example of its use; other failures are passed on.
-/

set_option autoImplicit false

namespace WordStream

inductive Tool where
  | events
  | text
  | parts
deriving DecidableEq, Repr

namespace Tool

def name : Tool → String
  | events => "extract_body_events"
  | text => "extract_body_text"
  | parts => "list_body_parts"

def usage : Tool → String
  | events => "extract_body_events(file_path=\"report.docx\")"
  | text => "extract_body_text(file_path=\"report.docx\", part_name=\"word/footnotes.xml\")"
  | parts => "list_body_parts(file_path=\"report.docx\")"

def all : List Tool := [events, text, parts]

def ofName? (name : String) : Option Tool :=
  all.find? fun tool => tool.name == name

end Tool

/-- Whether a tool reports a failure as an error of its own. -/
def Failure.isReported : Failure → Bool
  | input (.linkLoop _) | input (.system ..) => false
  | input _ | archive .unreadable | missingPart .. | malformedPart _ => true
  | archive _ | longRequest | settings _ => false

/-- A failure of the tool with a name. -/
structure ToolFailure where
  tool : String
  cause : Failure
deriving DecidableEq, Repr

/-- The wording of a tool's failure. Where there is no such tool its name stands for the example. -/
def ToolFailure.message (failure : ToolFailure) : String :=
  if failure.cause.isReported then
    failure.tool ++ " error: " ++ failure.cause.message ++ "\n  Example: " ++
      (match Tool.ofName? failure.tool with
      | some tool => tool.usage
      | none => failure.tool)
  else failure.cause.message

structure Request where
  source : Input.Source
  /-- The part that is asked for; the main document if it is empty. -/
  part : String := ""
  deletedText : Option Settings.Given := none
  moveFromText : Option Settings.Given := none
deriving DecidableEq, Repr

namespace Request

def bytes (request : Request) (files : Input.Files) : Except Failure ByteArray :=
  (request.source.bytes files).mapError .input

def settings (request : Request) : Except Failure Settings :=
  (Settings.read
    ((request.deletedText.map fun given => (Settings.Field.deletedText.name, given)).toList ++
      (request.moveFromText.map fun given => (Settings.Field.moveFromText.name, given)).toList)
    ).mapError .settings

/-- The policy that a request gives, where only the truth of its values matters. -/
def policy (request : Request) : Policy where
  deletedText := request.deletedText.any Settings.Given.isTrue
  moveFromText := request.moveFromText.any Settings.Given.isTrue

def partIn (request : Request) (package : Package) : Except Failure String :=
  if request.part.isEmpty then Package.mainDocument package else .ok request.part

/-- What is found of a part that has been rendered, unless the rendering has failed. -/
def ofRendered {Store : Type} (part : String) :
    Body.Rendition Store × Option Failure → Except Failure (String × Body.Rendition Store)
  | (rendition, none) => .ok (part, rendition)
  | (_, some cause) => .error cause

def render {Store : Type} (request : Request) (libraries : Libraries) (settings : Settings)
    (sink : Sink Store) (store : Store) (bytes : ByteArray) :
    Except Failure (String × Body.Rendition Store) := do
  let package ← Package.ofBytes libraries bytes
  let part ← request.partIn package
  ofRendered part (Package.renderPart settings sink store package part)

def events (request : Request) (libraries : Libraries) (files : Input.Files) :
    Except Failure (String × Array Event) := do
  let bytes ← request.bytes files
  let settings ← request.settings
  let (part, rendition) ←
    request.render libraries settings (.recorder settings.policy) #[] bytes
  return (part, rendition.store)

def text (request : Request) (libraries : Libraries) (files : Input.Files) :
    Except Failure (String × String) := do
  let bytes ← request.bytes files
  let (part, rendition) ←
    request.render libraries .standard (.plainText request.policy) {} bytes
  return (part, rendition.store.text)

def parts (request : Request) (libraries : Libraries) (files : Input.Files) :
    Except Failure (List String) := do
  let bytes ← request.bytes files
  Package.bodyParts (← Package.ofBytes libraries bytes)

end Request

inductive Answer where
  | events (part : String) (events : Array Event)
  | text (part : String) (text : String)
  | parts (parts : List String)
deriving DecidableEq, Repr

def Tool.answer (tool : Tool) (libraries : Libraries) (files : Input.Files) (request : Request) :
    Except ToolFailure Answer :=
  let answer : Except Failure Answer :=
    match tool with
    | .events => (request.events libraries files).map fun found => .events found.1 found.2
    | .text => (request.text libraries files).map fun found => .text found.1 found.2
    | .parts => (request.parts libraries files).map .parts
  answer.mapError fun cause => { tool := tool.name, cause }

/-- The bytes that a tool with any name is handed in. -/
def sourceForTool (tool : String) (source : Input.Source) (files : Input.Files) :
    Except ToolFailure ByteArray :=
  (source.bytes files).mapError fun fault => { tool, cause := .input fault }

end WordStream

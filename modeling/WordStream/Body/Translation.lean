import WordStream.Body.State
import WordStream.Date.Reader
import WordStream.Markup.Name
import WordStream.Text.Integer

/-!
# Translation of a body

The translation takes one signal at a time: the start or end of an element, text, or blank text
between elements. Each signal changes the state and reports events.
-/

set_option autoImplicit false

namespace WordStream.Body

open Markup (Attributes splitName? joinName)

inductive Signal where
  | start (space : Option String) (name : String) (attributes : Attributes)
  | finish (space : Option String) (name : String)
  | text (text : String)
  | blank (text : String)
deriving DecidableEq, Repr

/-- The outcome of a signal. `badName` tells that a name with an unclosed brace stopped it. -/
structure Outcome where
  state : State
  events : List Event := []
  badName : Bool := false
deriving DecidableEq, Repr

def wordAttribute? (attributes : Attributes) (name : String) : Option String :=
  attributes.get? (joinName wordSpace name)

/-- The integer that an element gives; `-1` if it gives none. -/
def integerValue (attributes : Attributes) : Int :=
  ((wordAttribute? attributes "val").bind Text.readInteger?).getD (-1)

/-- The words that switch formatting off, in lower case. -/
def offWords : List String := ["0", "false", "off"]

/-- Whether an element switches its formatting on, which it does unless it says otherwise. -/
def switchedOn (attributes : Attributes) : Bool :=
  match wordAttribute? attributes "val" with
  | none => true
  | some value => !offWords.contains (Text.trim value).toLower

/-- The date of an edit, if it has one that can be read. -/
def editDate? (attributes : Attributes) : Option Date.Stamp :=
  (wordAttribute? attributes "date").bind Date.readEditDate?

/-- The target of a hyperlink: its relationship's, else its anchor within the document. -/
def linkTarget? (context : Context) (attributes : Attributes) : Option String :=
  match attributes.get? (joinName relationshipSpace "id") with
  | some id => context.target? id
  | none => (wordAttribute? attributes "anchor").map ("#" ++ ·)

/-- The type and the relationship that the attributes of an embedded object give, or `none` if a
name cannot be split. The type may be in any namespace, and the last one counts. -/
def scanObject? (attributes : Attributes) : Option (Option String × Option String) :=
  attributes.foldlM (fun (found : Option String × Option String) (name, value) => do
    let (space, localName) ← splitName? name
    if localName = "Type" then return (some value, found.2)
    else if space = relationshipSpace && localName = "id" then return (found.1, some value)
    else return found) (none, none)

def startTag (context : Context) (attributes : Attributes) (state : State) : Tag → Outcome
  | .runFormat => { state := { state with inRunFormat := true } }
  | .run => { state := { state with inRun := true } }
  | .text => { state := { state with inText := true } }
  | .tab => { state := if state.inParagraphFormat then state else state.write "\t" }
  | .lineBreak | .carriageReturn => { state := state.write "\n" }
  | .paragraph => { state := { state with paragraphPending := true } }
  | .bold =>
      { state :=
          if state.inRun && state.inRunFormat then
            { state with runFormat := { state.runFormat with bold := switchedOn attributes } }
          else state }
  | .italic =>
      { state :=
          if state.inRun && state.inRunFormat then
            { state with runFormat := { state.runFormat with italic := switchedOn attributes } }
          else state }
  | .paragraphFormat => { state := { state with inParagraphFormat := true } }
  | .paragraphStyle =>
      { state :=
          if state.inParagraphFormat then
            { state with
              paragraphFormat :=
                { state.paragraphFormat with style := wordAttribute? attributes "val" } }
          else state }
  | .numbering => { state := { state with inNumbering := true } }
  | .level =>
      { state :=
          if state.inParagraphFormat && state.inNumbering then
            { state with
              paragraphFormat := { state.paragraphFormat with level := integerValue attributes } }
          else state }
  | .numberingId =>
      { state :=
          if state.inParagraphFormat && state.inNumbering then
            { state with
              paragraphFormat :=
                { state.paragraphFormat with numbering := integerValue attributes } }
          else state }
  | .table => { state, events := [.tableStart] }
  | .row => { state, events := [.rowStart] }
  | .cell => { state, events := [.cellStart] }
  | .bookmarkStart =>
      { state,
        events :=
          [.bookmarkStart (wordAttribute? attributes "id") (wordAttribute? attributes "name")] }
  | .bookmarkEnd => { state, events := [.bookmarkEnd (wordAttribute? attributes "id")] }
  | .hyperlink => { state, events := [.hyperlinkStart (linkTarget? context attributes)] }
  | .footnote => { state, events := [.footnote (wordAttribute? attributes "id")] }
  | .endnote => { state, events := [.endnote (wordAttribute? attributes "id")] }
  | .edit kind =>
      { state := { state with edit := kind },
        events := [.editStart (wordAttribute? attributes "author") (editDate? attributes) kind] }
  | .deletedText => { state := { state with inDeletedText := true } }
  | .blip =>
      { state := { state with pictureId := attributes.get? (joinName relationshipSpace "embed") } }
  | .drawingProperties =>
      { state := { state with pictureDescription := attributes.get? "descr" } }
  | .imageData =>
      { state :=
          { state with
            pictureId := attributes.get? (joinName relationshipSpace "id")
            pictureDescription := attributes.get? (joinName officeSpace "title") } }
  | .picture => { state := { state with inPicture := true } }
  | .legacyPicture => { state }
  | .oleObject =>
      match scanObject? attributes with
      | none => { state, badName := true }
      | some (type, relationship) =>
          { state, events := if type = some "Embed" then [.embeddedObject relationship] else [] }

def endPicture (context : Context) (state : State) : Outcome where
  state := { state with pictureId := none, pictureDescription := none, inPicture := false }
  events := [.picture (state.pictureId.bind context.target?) state.pictureDescription]

def endTag (context : Context) (state : State) : Tag → Outcome
  | .runFormat => { state := { state with inRunFormat := false } }
  | .run =>
      { state := { state with inRun := false, buffer := "", runFormat := {} },
        events := [.run state.runFormat state.buffer] }
  | .text => { state := { state with inText := false } }
  | .paragraph =>
      { state := { state with paragraphFormat := {}, paragraphPending := false },
        events := [.paragraphEnd] }
  | .paragraphFormat =>
      { state := { state with inParagraphFormat := false, paragraphFormat := {} },
        events := [.paragraphStart state.paragraphFormat] }
  | .numbering => { state := { state with inNumbering := false } }
  | .table => { state, events := [.tableEnd] }
  | .row => { state, events := [.rowEnd] }
  | .cell => { state, events := [.cellEnd] }
  | .hyperlink => { state, events := [.hyperlinkEnd] }
  | .edit _ => { state := { state with edit := .none }, events := [.editEnd] }
  | .deletedText => { state := { state with inDeletedText := false } }
  | .picture | .legacyPicture => endPicture context state
  | .tab | .lineBreak | .carriageReturn | .bold | .italic | .paragraphStyle | .level
  | .numberingId | .bookmarkStart | .bookmarkEnd | .footnote | .endnote | .blip
  | .drawingProperties | .imageData | .oleObject => { state }

/-- Reports a paragraph that was not yet reported, unless its formatting follows. -/
def announceParagraph (state : State) (name : String) : Outcome where
  state := { state with paragraphPending := false }
  events :=
    if state.paragraphPending && name != "pPr" then [.paragraphStart state.paragraphFormat] else []

/-- The state in which the gate is tested for the start of an element. -/
def countBranch (state : State) (space : Option String) (name : String) : State :=
  match Branch.of? space name with
  | some branch => state.openBranch branch
  | none => state

def start (context : Context) (state : State) (space : Option String) (name : String)
    (attributes : Attributes) : Outcome :=
  let counted := countBranch state space name
  if counted.gated context then { state := counted }
  else
    let announced := announceParagraph counted name
    match Tag.ofName? name with
    | none => announced
    | some tag =>
        let outcome := startTag context attributes announced.state tag
        { outcome with events := announced.events ++ outcome.events }

def finish (context : Context) (state : State) (space : Option String) (name : String) :
    Outcome :=
  match Branch.of? space name with
  | some branch => { state := state.closeBranch branch }
  | none =>
      if state.gated context then { state }
      else
        match Tag.ofName? name with
        | none => { state }
        | some tag => endTag context state tag

def keepsText (policy : Policy) (state : State) : Bool :=
  if state.inText then state.edit != .moveFrom || policy.moveFromText
  else state.edit == .delete && policy.deletedText

def keepsBlank (policy : Policy) (state : State) : Bool :=
  state.inText || (state.inDeletedText && policy.deletedText)

/-- The outcome of one signal under a policy for the text of tracked edits. -/
def step (context : Context) (policy : Policy) (state : State) : Signal → Outcome
  | .start space name attributes => start context state space name attributes
  | .finish space name => finish context state space name
  | .text text =>
      { state :=
          if !state.gated context && keepsText policy state then state.write text else state }
  | .blank text =>
      { state :=
          if !state.gated context && keepsBlank policy state then state.write text else state }

end WordStream.Body

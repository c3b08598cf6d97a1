import WordStream.Proofs.Body.Element

/-!
# What one start and one end do

Outside skipped branches the start and the end of an element set each part of the state by the kind of the
element and by what that part was; for text and formats the flags in force count as well. Whatever is kept of
a state goes on by these two equations. A start reports neither runs nor, past their announcement, paragraphs.
-/

set_option autoImplicit false

namespace WordStream.Body

open Markup (Attributes joinName)

variable {context : Context}

namespace Kind

/-! ## The start of an element -/

/-- The kind of edit in force within an element of a kind. -/
def editWithin (outer : EditKind) : Kind → EditKind
  | .content (.edit kind) => kind
  | _ => outer

def startText (inFormat : Bool) : Kind → String
  | .content .tab => if inFormat then "" else "\t"
  | .content .lineBreak | .content .carriageReturn => "\n"
  | _ => ""

/-- The formatting of a run past a start, which changes it only while it is heard. -/
def runFormatWithin (attributes : Attributes) (heard : Bool) (format : RunFormat) :
    Kind → RunFormat
  | .content .bold => if heard then { format with bold := switchedOn attributes } else format
  | .content .italic => if heard then { format with italic := switchedOn attributes } else format
  | _ => format

/-- The formatting of a paragraph past a start. What tells of lists is heard apart from the style. -/
def paragraphFormatWithin (attributes : Attributes) (heard listHeard : Bool)
    (format : ParagraphFormat) : Kind → ParagraphFormat
  | .content .paragraphStyle =>
      if heard then { format with style := wordAttribute? attributes "val" } else format
  | .content .level =>
      if listHeard then { format with level := integerValue attributes } else format
  | .content .numberingId =>
      if listHeard then { format with numbering := integerValue attributes } else format
  | _ => format

def pictureIdWithin (attributes : Attributes) (id : Option String) : Kind → Option String
  | .content .blip => attributes.get? (joinName relationshipSpace "embed")
  | .content .imageData => attributes.get? (joinName relationshipSpace "id")
  | _ => id

def pictureDescriptionWithin (attributes : Attributes) (description : Option String) :
    Kind → Option String
  | .content .drawingProperties => attributes.get? "descr"
  | .content .imageData => attributes.get? (joinName officeSpace "title")
  | _ => description

/-! ## The end of an element -/

/-- The kind of edit in force after an element of a kind, by the one before its end. -/
def editAfter (inner : EditKind) : Kind → EditKind
  | .content (.edit _) => .none
  | _ => inner

def isPicture : Kind → Bool
  | .content .picture | .content .legacyPicture => true
  | _ => false

theorem eq_of_isPicture {kind : Kind} (picture : kind.isPicture = true) :
    kind = .content .picture ∨ kind = .content .legacyPicture := by
  cases kind with
  | branch | other => cases picture
  | content tag =>
      cases tag with
      | picture => exact .inl rfl
      | legacyPicture => exact .inr rfl
      | _ => cases picture

/-- Whether the end of an element of a kind clears the formatting of the paragraph. -/
def endsParagraphFormat : Kind → Bool
  | .content .paragraph | .content .paragraphFormat => true
  | _ => false

end Kind

namespace State

/-- The state with the end of an element of a kind counted. -/
def discounting (state : State) : Kind → State
  | .branch branch => state.closeBranch branch
  | .content _ | .other => state

/-- The state past the start of an element of a kind, outside skipped branches. -/
def opened (attributes : Attributes) (state : State) (kind : Kind) : State where
  inRun := kind == .content .run || state.inRun
  inRunFormat := kind == .content .runFormat || state.inRunFormat
  inText := kind == .content .text || state.inText
  inParagraphFormat := kind == .content .paragraphFormat || state.inParagraphFormat
  inNumbering := kind == .content .numbering || state.inNumbering
  inPicture := kind == .content .picture || state.inPicture
  inDeletedText := kind == .content .deletedText || state.inDeletedText
  paragraphPending := kind == .content .paragraph || state.paragraphPending
  edit := kind.editWithin state.edit
  choiceDepth := (state.counting kind).choiceDepth
  fallbackDepth := (state.counting kind).fallbackDepth
  pictureId := kind.pictureIdWithin attributes state.pictureId
  pictureDescription := kind.pictureDescriptionWithin attributes state.pictureDescription
  buffer := state.buffer ++ kind.startText state.inParagraphFormat
  runFormat := kind.runFormatWithin attributes (state.inRun && state.inRunFormat) state.runFormat
  paragraphFormat :=
    kind.paragraphFormatWithin attributes state.inParagraphFormat
      (state.inParagraphFormat && state.inNumbering) state.paragraphFormat

/-- The state past the end of an element of a kind, outside skipped branches. -/
def closed (state : State) (kind : Kind) : State where
  inRun := kind != .content .run && state.inRun
  inRunFormat := kind != .content .runFormat && state.inRunFormat
  inText := kind != .content .text && state.inText
  inParagraphFormat := kind != .content .paragraphFormat && state.inParagraphFormat
  inNumbering := kind != .content .numbering && state.inNumbering
  inPicture := !kind.isPicture && state.inPicture
  inDeletedText := kind != .content .deletedText && state.inDeletedText
  paragraphPending := kind != .content .paragraph && state.paragraphPending
  edit := kind.editAfter state.edit
  choiceDepth := (state.discounting kind).choiceDepth
  fallbackDepth := (state.discounting kind).fallbackDepth
  pictureId := if kind.isPicture then none else state.pictureId
  pictureDescription := if kind.isPicture then none else state.pictureDescription
  buffer := if kind = .content .run then "" else state.buffer
  runFormat := if kind = .content .run then {} else state.runFormat
  paragraphFormat := if kind.endsParagraphFormat then {} else state.paragraphFormat

end State

/-! ## The handlers -/

theorem state_startKind (attributes : Attributes) (state : State) (kind : Kind) :
    (startKind context attributes state kind).state = state.opened attributes kind := by
  unfold State.opened
  cases kind with
  | branch branch =>
      simp only [Kind.startText, String.append_empty]
      cases branch <;> rfl
  | other =>
      simp only [Kind.startText, String.append_empty]
      rfl
  | content tag =>
      cases tag with
      | bold | italic | paragraphStyle | level | numberingId =>
          simp only [startKind, startTag, Kind.startText, Kind.runFormatWithin,
            Kind.paragraphFormatWithin, String.append_empty]
          split <;> rfl
      | tab =>
          simp only [startKind, startTag, Kind.startText]
          split
          · rw [String.append_empty]
            rfl
          · rfl
      | lineBreak | carriageReturn => rfl
      | oleObject =>
          simp only [startKind, startTag, Kind.startText, String.append_empty]
          cases scanObject? attributes <;> rfl
      | _ =>
          simp only [Kind.startText, String.append_empty]
          rfl

theorem state_finishKind (state : State) (kind : Kind) :
    (finishKind context state kind).state = state.closed kind := by
  cases kind with
  | branch branch => cases branch <;> rfl
  | other => rfl
  | content tag => cases tag <;> rfl

/-- What is reported at the start of an element, past the announcement of a paragraph. -/
theorem kind_of_mem_startKind {attributes : Attributes} {state : State} {kind : Kind} {event : Event}
    (member : event ∈ (startKind context attributes state kind).events) :
    event.kind ≠ .run ∧ event.kind ≠ .paragraphStart := by
  cases kind with
  | branch | other => cases member
  | content tag =>
      cases tag with
      | oleObject =>
          simp only [startKind, startTag] at member
          split at member
          · cases member
          · split at member
            · rw [List.mem_singleton.1 member]
              simp [Event.kind]
            · cases member
      | table | row | cell | bookmarkStart | bookmarkEnd | hyperlink | footnote | endnote | edit =>
          rw [List.mem_singleton.1 member]
          simp [Event.kind]
      | _ => cases member

end WordStream.Body

import WordStream.Proofs.Body.ParagraphFormats
import WordStream.Proofs.Body.ParagraphStarts
import WordStream.Proofs.Body.Skeleton

/-!
# The outline of a body

The kinds of all events of a body, starts of paragraphs included, come in an order that the tree alone settles.
In a paragraph nothing comes before its start but what stands in formatting that comes first: a paragraph with
such formatting starts where that ends, and what is inside of it is reported at once.
-/

set_option autoImplicit false

namespace WordStream.Body

open Markup (Attributes Place Tree joinName)
variable {context : Context}

/-! ## What the elements of a tree report -/

/-- The kinds of events that the start of an element reports, past the announcement. -/
def Kind.openingKinds (attributes : Attributes) : Kind → List EventKind
  | .content .oleObject =>
      if (scanObject? attributes).map Prod.fst = some (some "Embed") then [.embeddedObject] else []
  | kind => kind.startKinds attributes

def Kind.closingKinds : Kind → List EventKind
  | .content .paragraphFormat => [.paragraphStart]
  | kind => kind.endKinds

/-- The start of a paragraph that waits when an element begins. -/
def Kind.announcedKinds (pending : Bool) (kind : Kind) : List EventKind :=
  if pending && kind != .content .paragraphFormat then [.paragraphStart] else []

mutual

/-- The kinds of events of a tree in the order in which they are reported, by whether a paragraph waits. -/
def outline (context : Context) (pending : Bool) : Tree → List EventKind
  | .element tag attributes children =>
      match Kind.ofTag? tag with
      | some kind =>
          if kind.skipped context then []
          else
            kind.announcedKinds pending ++ kind.openingKinds attributes ++
              outlineOfList context (kind == .content .paragraph) children ++ kind.closingKinds
      | none => []
  | .text _ => []

def outlineOfList (context : Context) (pending : Bool) : List Tree → List EventKind
  | [] => []
  | tree :: trees =>
      outline context pending tree ++
        outlineOfList context (pending && !isShownElement context tree) trees

end

theorem outline_of_shown {pending : Bool} {tag : String} {kind : Kind} {attributes : Attributes}
    {children : List Tree} (found : Kind.ofTag? tag = some kind)
    (shown : kind.skipped context = false) :
    outline context pending (.element tag attributes children) =
      kind.announcedKinds pending ++ kind.openingKinds attributes ++
        outlineOfList context (kind == .content .paragraph) children ++ kind.closingKinds := by
  simp only [outline, found, shown, Bool.false_eq_true, if_false]

theorem isShownElement_cases (context : Context) (tree : Tree) :
    (isShownElement context tree = false ∧ ∀ pending, outline context pending tree = []) ∨
      ∃ tag attributes children kind, tree = .element tag attributes children ∧
        Kind.ofTag? tag = some kind ∧ kind.skipped context = false ∧
          isShownElement context tree = true := by
  cases tree with
  | text content => exact .inl ⟨rfl, fun _ => by rw [outline]⟩
  | element tag attributes children =>
      cases found : Kind.ofTag? tag with
      | none => exact .inl ⟨by simp [isShownElement, found], fun _ => by simp [outline, found]⟩
      | some kind =>
          cases skipped : kind.skipped context with
          | true =>
              exact .inl ⟨by simp [isShownElement, found, skipped],
                fun _ => by simp [outline, found, skipped]⟩
          | false =>
              exact .inr ⟨tag, attributes, children, kind, rfl, found, skipped,
                by simp [isShownElement, found, skipped]⟩

/-! ## What one call reports -/

theorem announcement_kinds (state : State) (kind : Kind) :
    (state.announcement kind).map Event.kind = kind.announcedKinds state.paragraphPending := by
  unfold State.announcement Kind.announcedKinds
  split <;> rfl

theorem startKind_kinds (attributes : Attributes) (state : State) (kind : Kind) :
    (startKind context attributes state kind).events.map Event.kind = kind.openingKinds attributes := by
  cases kind with
  | branch branch => cases branch <;> rfl
  | other => rfl
  | content tag =>
      cases tag with
      | oleObject =>
          simp only [startKind, startTag, Kind.openingKinds]
          cases scanObject? attributes with
          | none => rfl
          | some found =>
              obtain ⟨type, relationship⟩ := found
              by_cases embedded : type = some "Embed"
              · simp [embedded, Event.kind]
              · simp [embedded]
      | _ => rfl

theorem finishKind_kinds (state : State) (kind : Kind) :
    (finishKind context state kind).events.map Event.kind = kind.closingKinds := by
  cases kind with
  | branch branch => cases branch <;> rfl
  | other => rfl
  | content tag => cases tag <;> rfl

/-! ## Whole trees -/

/-- Whether a paragraph waits to be reported, and the kinds of what was. -/
structure Outline where
  pending : Bool
  kinds : List EventKind
deriving DecidableEq, Repr

def outlineView (context : Context) : View context Outline where
  read state events :=
    { pending := state.paragraphPending
      kinds := events.map Event.kind }
  opens attributes kind before :=
    { pending := kind == .content .paragraph
      kinds := before.kinds ++ (kind.announcedKinds before.pending ++ kind.openingKinds attributes) }
  closes kind before :=
    { pending := before.pending && kind != .content .paragraph
      kinds := before.kinds ++ kind.closingKinds }
  texts _ before := before
  allows _ := True
  read_start state events attributes kind := by
    simp only [List.map_append, announcement_kinds, startKind_kinds, startKind_paragraphPending]
  read_finish state events kind := by
    simp only [List.map_append, finishKind_kinds, finishKind_paragraphPending]
  read_text policy state _ content _ := by split <;> rfl

mutual

/-- A tree adds its outline, and a paragraph waits afterwards if it did and the tree is no element. -/
theorem outlineView_through :
    ∀ (tree : Tree) (before : Outline),
      (outlineView context).through tree before =
        { pending := before.pending && !isShownElement context tree
          kinds := before.kinds ++ outline context before.pending tree }
  | .text content, before => by
      simp [View.through, isShownElement, outline, outlineView]
  | .element tag attributes children, before => by
      cases found : Kind.ofTag? tag with
      | none => simp [View.through, isShownElement, outline, found]
      | some kind =>
          cases skipped : kind.skipped context with
          | true => simp [View.through, isShownElement, outline, found, skipped]
          | false =>
              have shown : isShownElement context (.element tag attributes children) = true := by
                simp [isShownElement, found, skipped]
              rw [View.through_element found skipped, outline_of_shown found skipped, shown,
                outlineView_throughList children]
              -- A paragraph that waits within the element can only be the element itself.
              have ended : ((kind == .content .paragraph &&
                  !children.any (isShownElement context)) && kind != .content .paragraph) = false := by
                rw [Bool.and_right_comm, bne, Bool.and_not_self, Bool.false_and]
              simp [outlineView, ended]

theorem outlineView_throughList :
    ∀ (trees : List Tree) (before : Outline),
      (outlineView context).throughList trees before =
        { pending := before.pending && !trees.any (isShownElement context)
          kinds := before.kinds ++ outlineOfList context before.pending trees }
  | [], before => by
      simp [View.throughList, outlineOfList]
  | tree :: trees, before => by
      rw [View.throughList, outlineView_through tree before, outlineView_throughList trees]
      simp [outlineOfList, Bool.and_assoc]

end

/-! ## What comes first in a paragraph -/

/-- Whether nothing is reported before some paragraph starts. -/
def startsParagraph (kinds : List EventKind) : Bool :=
  kinds.head?.all fun kind => kind == .paragraphStart

theorem startsParagraph_append {former latter : List EventKind}
    (starts : startsParagraph latter = true) :
    startsParagraph (former ++ latter) = startsParagraph former := by
  cases former with
  | nil => exact starts
  | cons kind rest => rfl

/-- What is in the formatting that comes before all other elements of a paragraph. -/
def leadFormatting (context : Context) (trees : List Tree) : List Tree :=
  match trees.find? (isShownElement context) with
  | some (.element tag _ content) =>
      if Kind.ofTag? tag = some (.content .paragraphFormat) then content else []
  | _ => []

/-- What comes before the start of a paragraph is what its leading formatting reports. -/
theorem startsParagraph_outline (trees : List Tree) :
    startsParagraph (outlineOfList context true trees) =
      startsParagraph (outlineOfList context false (leadFormatting context trees)) := by
  induction trees with
  | nil => rfl
  | cons tree trees ih =>
      rcases isShownElement_cases context tree with
        ⟨hidden, nothing⟩ | ⟨tag, attributes, children, kind, rfl, found, skipped, shown⟩
      · rw [outlineOfList, nothing, hidden, List.nil_append, Bool.not_false, Bool.and_true, ih,
          leadFormatting, leadFormatting, List.find?_cons_of_neg (by rw [hidden]; exact Bool.false_ne_true)]
      · have lead : leadFormatting context (.element tag attributes children :: trees) =
            if kind = .content .paragraphFormat then children else [] := by
          simp [leadFormatting, shown, found]
        rw [outlineOfList, outline_of_shown found skipped, lead]
        by_cases formatting : kind = .content .paragraphFormat
        · subst formatting
          -- Of the formatting itself only the end reports anything, and that starts the paragraph.
          rw [if_pos rfl, List.append_assoc]
          have starts (rest : List EventKind) : startsParagraph ([.paragraphStart] ++ rest) = true := rfl
          exact startsParagraph_append (starts _)
        · have announced : kind.announcedKinds true = [.paragraphStart] := by
            simp [Kind.announcedKinds, formatting]
          rw [if_neg formatting, announced]
          rfl

/-- Whatever was told before and whatever the policies, a paragraph that stands in no other one directly is
reported by its outline. What comes first is its start, unless formatting comes first in it and reports
anything else. -/
theorem reportedAt_paragraphOutline {place : Place} {tag : String} {attributes : Attributes}
    {children : List Tree} {turns : List Turn}
    (named : (place.fill (.element tag attributes children)).all Tree.isNamed = true)
    (shown : isShown context place = true)
    (found : Kind.ofTag? tag = some (.content .paragraph))
    (apart : (ancestorsOf place).head? ≠ some (.content .paragraph))
    (told : turns.map Prod.snd = (place.fill (.element tag attributes children)).calls) :
    ∃ inner : List Event,
      reportedAt context place (.element tag attributes children) turns =
          inner ++ [.paragraphEnd] ∧
        inner.map Event.kind = outlineOfList context true children ∧
          ((∀ event, inner.head? = some event → event.kind = .paragraphStart) ↔
            startsParagraph (outlineOfList context false (leadFormatting context children)) =
              true) := by
  obtain ⟨filled, inner, events, reported, read⟩ :=
    (outlineView context).exists_reportedAt found rfl named shown (fun _ _ => trivial) told
  have suits := headingView_keeps.at_place place Heading.Suits.initial named shown follows_any
    (fun _ _ => trivial) (told_before told)
  let reached := Session.turns context {} (turns.take place.before.length)
  have settled : reached.state.paragraphPending = false := by
    rw [Bool.eq_false_iff]
    intro pends
    exact apart (suits.pending pends)
  have entered : (outlineView context).opens attributes (.content .paragraph)
      ((outlineView context).of reached) =
        { pending := true, kinds := reached.events.toList.map Event.kind } := by
    simp [outlineView, View.of, settled, Kind.announcedKinds, Kind.openingKinds, Kind.startKinds]
  have kinds : inner.map Event.kind = outlineOfList context true children := by
    rw [entered, outlineView_throughList] at read
    have whole : filled.events.toList.map Event.kind =
        reached.events.toList.map Event.kind ++ outlineOfList context true children :=
      congrArg Outline.kinds read
    rw [events, Array.toList_appendList, List.map_append] at whole
    exact List.append_cancel_left whole
  refine ⟨inner, reported, kinds, ?_⟩
  rw [← startsParagraph_outline, ← kinds]
  cases inner <;> simp [startsParagraph]

/-- A paragraph whose mark was inserted. -/
def trackedMark : Tree :=
  wordElement .paragraph []
    [wordElement .paragraphFormat []
      [wordElement .runFormat []
        [wordElement (.edit .insert) [(joinName wordSpace "author", "A")] []]],
     wordElement .run [] [wordElement .text [] [.text "x"]]]

theorem reportedAt_trackedMark :
    reportedAt {} .root trackedMark (trackedMark.calls.map fun call => ({}, call)) =
      [.editStart (some "A") none .insert, .editEnd, .paragraphStart {}, .run {} "x",
       .paragraphEnd] := by
  decide +kernel

theorem reportedAt_startedParagraph :
    ∃ inner : List Event,
      reportedAt {} inCell headingParagraph
          ((inCell.fill headingParagraph).calls.map fun call => ({}, call)) =
        inner ++ [.paragraphEnd] ∧
        inner.map Event.kind = [.paragraphStart, .run] ∧
          ∀ event, inner.head? = some event → event.kind = .paragraphStart := by
  have named : (inCell.fill headingParagraph).all Tree.isNamed = true := by
    simp [inCell, headingParagraph, headingFormat, valued, Place.fill, wordElement, Tree.all,
      Tree.allOfList, Tree.isNamed]
  have shown : isShown {} inCell = true := by decide +kernel
  have found : Kind.ofTag? (joinName wordSpace Tag.paragraph.name) = some (.content .paragraph) :=
    Kind.ofTag?_wordSpace (by decide)
  have apart : (ancestorsOf inCell).head? ≠ some (.content .paragraph) := by decide +kernel
  obtain ⟨inner, reported, kinds, first⟩ := reportedAt_paragraphOutline named shown found apart
    (told_of_constant {} (inCell.fill headingParagraph).calls)
  refine ⟨inner, reported, ?_, first.2 (by decide +kernel)⟩
  rw [kinds]
  decide +kernel

end WordStream.Body

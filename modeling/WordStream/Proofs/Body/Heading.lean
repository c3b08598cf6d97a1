import WordStream.Proofs.Body.View

/-!
# What a translation knows of paragraphs

A translation keeps the properties that were given last to the formatting of a paragraph, and whether a
paragraph waits to be reported. Both go on by themselves, and with them the paragraphs that are reported.
-/

set_option autoImplicit false

namespace WordStream.Body

open Markup (Attributes)

variable {context : Context}

/-! ## Properties -/

def givenStyle? : Mention → Option (Option String)
  | (.paragraphStyle, attributes) => some (wordAttribute? attributes "val")
  | _ => none

def givenLevel? : Mention → Option Int
  | (.level, attributes) => some (integerValue attributes)
  | _ => none

def givenNumbering? : Mention → Option Int
  | (.numberingId, attributes) => some (integerValue attributes)
  | _ => none

/-- The formatting once elements were mentioned, of which the last for each property counts. -/
def givenFormat (format : ParagraphFormat) (mentioned : List Mention) : ParagraphFormat where
  style := (mentioned.filterMap givenStyle?).getLast?.getD format.style
  level := (mentioned.filterMap givenLevel?).getLast?.getD format.level
  numbering := (mentioned.filterMap givenNumbering?).getLast?.getD format.numbering

theorem givenFormat_append (format : ParagraphFormat) (former latter : List Mention) :
    givenFormat format (former ++ latter) = givenFormat (givenFormat format former) latter := by
  simp only [givenFormat, List.filterMap_append, List.getLast?_append, Option.getD_or]

/-- The formatting that an event begins a paragraph with. -/
def startedFormat? : Event → Option ParagraphFormat
  | .paragraphStart format => some format
  | _ => none

/-! ## The properties that are kept -/

/-- What a translation knows of the properties of paragraphs. -/
structure ParagraphProperties where
  inFormat : Bool
  inNumbering : Bool
  format : ParagraphFormat
deriving DecidableEq, Repr

namespace ParagraphProperties

def opened (attributes : Attributes) (properties : ParagraphProperties) : Kind → ParagraphProperties
  | .content .paragraphFormat => { properties with inFormat := true }
  | .content .numbering => { properties with inNumbering := true }
  | .content .paragraphStyle =>
      if properties.inFormat then
        { properties with
          format := givenFormat properties.format [(.paragraphStyle, attributes)] }
      else properties
  | .content .level =>
      if properties.inFormat && properties.inNumbering then
        { properties with format := givenFormat properties.format [(.level, attributes)] }
      else properties
  | .content .numberingId =>
      if properties.inFormat && properties.inNumbering then
        { properties with format := givenFormat properties.format [(.numberingId, attributes)] }
      else properties
  | _ => properties

def closed (properties : ParagraphProperties) : Kind → ParagraphProperties
  | .content .paragraph => { properties with format := {} }
  | .content .paragraphFormat => { properties with inFormat := false, format := {} }
  | .content .numbering => { properties with inNumbering := false }
  | _ => properties

theorem opened_inFormat (attributes : Attributes) (properties : ParagraphProperties) (kind : Kind) :
    (properties.opened attributes kind).inFormat =
      (kind == .content .paragraphFormat || properties.inFormat) := by
  cases kind with
  | branch | other => rfl
  | content tag =>
      cases tag with
      | paragraphStyle | level | numberingId =>
          rw [opened]
          split <;> rfl
      | _ => rfl

theorem closed_inFormat (properties : ParagraphProperties) (kind : Kind) :
    (properties.closed kind).inFormat =
      (kind != .content .paragraphFormat && properties.inFormat) := by
  cases kind with
  | branch | other => rfl
  | content tag => cases tag <;> rfl

theorem opened_style {properties : ParagraphProperties} (attributes : Attributes)
    (formatting : properties.inFormat = true) :
    properties.opened attributes (.content .paragraphStyle) =
      { properties with format := givenFormat properties.format [(.paragraphStyle, attributes)] } :=
  if_pos formatting

/-- Where both flags are set what tells a list is heard. -/
theorem opened_list {properties : ParagraphProperties} {tag : Tag} (attributes : Attributes)
    (tells : tag = .level ∨ tag = .numberingId) (formatting : properties.inFormat = true)
    (listing : properties.inNumbering = true) :
    properties.opened attributes (.content tag) =
      { properties with format := givenFormat properties.format [(tag, attributes)] } := by
  have both : (properties.inFormat && properties.inNumbering) = true := by
    rw [formatting, listing]
    rfl
  rcases tells with rfl | rfl
  · exact if_pos both
  · exact if_pos both

end ParagraphProperties

def State.paragraphProperties (state : State) : ParagraphProperties where
  inFormat := state.inParagraphFormat
  inNumbering := state.inNumbering
  format := state.paragraphFormat

theorem startKind_paragraphProperties (attributes : Attributes) (state : State) (kind : Kind) :
    (startKind context attributes { state with paragraphPending := false }
        kind).state.paragraphProperties =
      state.paragraphProperties.opened attributes kind := by
  rw [state_startKind]
  cases kind with
  | branch | other => rfl
  | content tag =>
      cases tag with
      | paragraphStyle | level | numberingId =>
          exact apply_ite (ParagraphProperties.mk state.inParagraphFormat state.inNumbering) _ _ _
      | _ => rfl

theorem finishKind_paragraphProperties (state : State) (kind : Kind) :
    (finishKind context state kind).state.paragraphProperties =
      state.paragraphProperties.closed kind := by
  rw [state_finishKind]
  cases kind with
  | branch | other => rfl
  | content tag => cases tag <;> rfl

/-- The properties, whether a paragraph waits to be reported, and the paragraphs that were. -/
structure Heading where
  pending : Bool
  properties : ParagraphProperties
  started : List ParagraphFormat
deriving DecidableEq, Repr

namespace Heading

def opened (attributes : Attributes) (kind : Kind) (heading : Heading) : Heading where
  pending := kind == .content .paragraph
  properties := heading.properties.opened attributes kind
  started :=
    if heading.pending && kind != .content .paragraphFormat then
      heading.started ++ [heading.properties.format]
    else heading.started

def closed (kind : Kind) (heading : Heading) : Heading where
  pending := heading.pending && kind != .content .paragraph
  properties := heading.properties.closed kind
  started :=
    if kind = .content .paragraphFormat then heading.started ++ [heading.properties.format]
    else heading.started

theorem started_prefix_opened (attributes : Attributes) (kind : Kind) (heading : Heading) :
    heading.started <+: (heading.opened attributes kind).started := by
  rw [opened]
  split
  · exact List.prefix_append _ _
  · exact List.prefix_rfl

theorem started_prefix_closed (kind : Kind) (heading : Heading) :
    heading.started <+: (heading.closed kind).started := by
  rw [closed]
  split
  · exact List.prefix_append _ _
  · exact List.prefix_rfl

end Heading

theorem startKind_paragraphPending (attributes : Attributes) (state : State) (kind : Kind) :
    (startKind context attributes { state with paragraphPending := false }
      kind).state.paragraphPending = (kind == .content .paragraph) := by
  rw [state_startKind]
  exact Bool.or_false _

theorem startKind_started (attributes : Attributes) (state : State) (kind : Kind) :
    (startKind context attributes state kind).events.filterMap startedFormat? = [] := by
  rw [List.filterMap_eq_nil_iff]
  intro event member
  cases event with
  | paragraphStart => exact absurd rfl (kind_of_mem_startKind member).2
  | _ => rfl

theorem finishKind_paragraphPending (state : State) (kind : Kind) :
    (finishKind context state kind).state.paragraphPending =
      (state.paragraphPending && kind != .content .paragraph) := by
  rw [state_finishKind]
  exact Bool.and_comm _ _

theorem finishKind_started (state : State) (kind : Kind) :
    (finishKind context state kind).events.filterMap startedFormat? =
      if kind = .content .paragraphFormat then [state.paragraphFormat] else [] := by
  cases kind with
  | branch branch => cases branch <;> rfl
  | other => rfl
  | content tag => cases tag <;> rfl

/-- The paragraphs that are reported and their properties go on by themselves. -/
def headingView (context : Context) : View context Heading where
  read state events :=
    { pending := state.paragraphPending
      properties := state.paragraphProperties
      started := events.filterMap startedFormat? }
  opens := Heading.opened
  closes := Heading.closed
  texts _ heading := heading
  allows _ := True
  read_start state events attributes kind := by
    intro outcome
    have started : (events ++ (state.announcement kind ++ outcome.events)).filterMap
        startedFormat? =
          if state.paragraphPending && kind != .content .paragraphFormat then
            events.filterMap startedFormat? ++ [state.paragraphFormat]
          else events.filterMap startedFormat? := by
      rw [List.filterMap_append, List.filterMap_append, startKind_started, List.append_nil,
        State.announcement]
      split <;> simp [startedFormat?]
    simp only [Heading.opened, started, outcome, startKind_paragraphPending,
      startKind_paragraphProperties]
    rfl
  read_finish state events kind := by
    intro outcome
    have started : (events ++ outcome.events).filterMap startedFormat? =
        if kind = .content .paragraphFormat then
          events.filterMap startedFormat? ++ [state.paragraphFormat]
        else events.filterMap startedFormat? := by
      rw [List.filterMap_append, finishKind_started]
      split <;> simp
    simp only [Heading.closed, started, outcome, finishKind_paragraphPending,
      finishKind_paragraphProperties]
    rfl
  read_text policy state _ content _ := by split <;> rfl

theorem headingView_opens (attributes : Attributes) (kind : Kind) (heading : Heading) :
    ((headingView context).opens attributes kind heading).properties =
      heading.properties.opened attributes kind := rfl

/-! ## Between paragraphs -/

/-- Outside paragraph formatting, with no properties. -/
def ParagraphProperties.Empty (properties : ParagraphProperties) : Prop :=
  properties.inFormat = false ∧ properties.format = {}

namespace ParagraphProperties.Empty

variable {properties : ParagraphProperties} {kind : Kind}

theorem opened (empty : properties.Empty) (attributes : Attributes)
    (other : kind ≠ .content .paragraphFormat) : (properties.opened attributes kind).Empty := by
  obtain ⟨outside, plain⟩ := empty
  cases kind with
  | branch | other => exact ⟨outside, plain⟩
  | content tag =>
      cases tag with
      | paragraphFormat => exact absurd rfl other
      | paragraphStyle =>
          rw [ParagraphProperties.opened, outside]
          exact ⟨outside, plain⟩
      | level | numberingId =>
          rw [ParagraphProperties.opened, outside, Bool.false_and]
          exact ⟨outside, plain⟩
      | _ => exact ⟨outside, plain⟩

theorem closed (empty : properties.Empty) : (properties.closed kind).Empty := by
  obtain ⟨outside, plain⟩ := empty
  cases kind with
  | branch | other => exact ⟨outside, plain⟩
  | content tag =>
      cases tag with
      | paragraphFormat => exact ⟨rfl, rfl⟩
      | paragraph => exact ⟨outside, rfl⟩
      | _ => exact ⟨outside, plain⟩

end ParagraphProperties.Empty

namespace ParagraphProperties

variable {properties : ParagraphProperties}

theorem plain_opened (plain : properties.inFormat = false → properties.format = {})
    (attributes : Attributes) (kind : Kind) :
    (properties.opened attributes kind).inFormat = false →
      (properties.opened attributes kind).format = {} := by
  rw [opened_inFormat]
  intro outside
  rw [Bool.or_eq_false_iff] at outside
  have empty : properties.Empty := ⟨outside.2, plain outside.2⟩
  exact (empty.opened attributes (ne_of_beq_false outside.1)).2

theorem plain_closed (plain : properties.inFormat = false → properties.format = {}) (kind : Kind) :
    (properties.closed kind).inFormat = false → (properties.closed kind).format = {} := by
  rw [closed_inFormat]
  intro outside
  by_cases ends : kind = .content .paragraphFormat
  · rw [ends]
    rfl
  · rw [bne_iff_ne.2 ends, Bool.true_and] at outside
    have empty : properties.Empty := ⟨outside, plain outside⟩
    exact empty.closed.2

end ParagraphProperties

/-- What a heading tells of the open elements. -/
structure Heading.Suits (ancestors : List Kind) (heading : Heading) : Prop where
  pending : heading.pending = true → ancestors.head? = some (.content .paragraph)
  formatting : SetWithin heading.properties.inFormat ancestors .paragraphFormat
  plain : heading.properties.inFormat = false → heading.properties.format = {}

namespace Heading.Suits

variable {ancestors : List Kind} {heading : Heading} {kind : Kind}

theorem initial : ((headingView context).of {}).Suits [] where
  pending pends := by cases pends
  formatting := .unset
  plain _ := rfl

theorem opened (suits : heading.Suits ancestors) (attributes : Attributes) (kind : Kind) :
    (heading.opened attributes kind).Suits (kind :: ancestors) where
  pending pends := congrArg some (eq_of_beq pends)
  formatting := by
    rw [Heading.opened, ParagraphProperties.opened_inFormat]
    exact suits.formatting.opened kind
  plain := ParagraphProperties.plain_opened suits.plain attributes kind

theorem closed (suits : heading.Suits (kind :: ancestors)) :
    (heading.closed kind).Suits ancestors where
  pending := by
    intro pends
    simp only [Heading.closed, Bool.and_eq_true, bne_iff_ne] at pends
    have paragraph := suits.pending pends.1
    rw [List.head?_cons, Option.some_inj] at paragraph
    exact absurd paragraph pends.2
  formatting := by
    rw [Heading.closed, ParagraphProperties.closed_inFormat]
    exact suits.formatting.closed
  plain := ParagraphProperties.plain_closed suits.plain kind

end Heading.Suits

theorem headingView_keeps : (headingView context).Keeps anyGrammar Heading.Suits where
  opens _ attributes kind _ _ _ suits := suits.opened attributes kind
  closes _ _ _ _ _ _ suits := suits.closed
  texts _ _ _ suits := suits

theorem headingView_keeps_reported (started : List ParagraphFormat) :
    (headingView context).Keeps anyGrammar (fun _ heading => started <+: heading.started) where
  opens _ attributes kind heading _ _ held :=
    held.trans (heading.started_prefix_opened attributes kind)
  closes _ kind _ heading _ _ held := held.trans (heading.started_prefix_closed kind)
  texts _ _ _ held := held

end WordStream.Body

import WordStream.Proofs.Body.FormatScope
import WordStream.Proofs.Body.Heading
import WordStream.Proofs.Body.Report

/-!
# The formatting of paragraphs

A paragraph is reported at the end of its formatting, with the properties that were given last. A translation
empties them at every end of paragraph formatting. Where formatting stands inside of other formatting its end
leaves nothing to report to the end of the outer.
-/

set_option autoImplicit false

namespace WordStream.Body

open Markup (Attributes Call Place Tree joinName)
open Ancestry (within)

variable {context : Context}

/-! ## Grammars -/

/-- The elements that give properties directly in the formatting of a paragraph or in the list
formatting there. -/
def ownProperties (ancestors : List Kind) : Tag → Bool
  | .paragraphStyle => ancestors == [.content .paragraphFormat]
  | .level | .numberingId => ancestors == [.content .numbering, .content .paragraphFormat]
  | _ => false

/-- In paragraph formatting no paragraph and no paragraph formatting is inside, its style and its list
formatting stand directly in it, and what tells a list stands directly in list formatting. -/
def propertyGrammar : Grammar := fun ancestors kind =>
  match kind with
  | .content .paragraph | .content .paragraphFormat => false
  | .content .paragraphStyle | .content .numbering => ancestors == [.content .paragraphFormat]
  | .content .level | .content .numberingId =>
      ancestors == [.content .numbering, .content .paragraphFormat]
  | _ => true

def contentGrammar : Grammar := fun _ kind =>
  kind != .content .paragraph && kind != .content .paragraphFormat

def emptyGrammar : Grammar := fun _ _ => false

/-! ## Inside formatting -/

def paragraphScope : FormatScope Heading ParagraphFormat where
  outer := .content .paragraphFormat
  inner := .content .numbering
  inOuter heading := heading.properties.inFormat
  inInner heading := heading.properties.inNumbering
  format heading := heading.properties.format
  given := givenFormat
  given_nil _ := rfl
  given_append := givenFormat_append

/-- In formatting that keeps to the grammar the properties are what its own elements give. -/
theorem headingView_traces_own :
    (headingView context).Traces propertyGrammar ownProperties paragraphScope.Follows where
  nil _ _ := .nil
  append _ _ _ _ _ _ first rest := first.append rest
  text _ _ _ := .nil
  element ancestors attributes kind before inner mentioned allowed _ inside := by
    cases kind with
    | branch | other =>
        exact inside.around rfl ⟨rfl, rfl⟩ (fun _ _ => rfl) ⟨rfl, rfl, rfl⟩
    | content tag =>
        cases tag with
        | paragraph | paragraphFormat => cases allowed
        | numbering =>
            obtain rfl := eq_of_beq allowed
            exact inside.enter ⟨rfl, rfl, rfl⟩ ⟨rfl, rfl⟩
        | paragraphStyle =>
            obtain rfl := eq_of_beq allowed
            refine inside.around rfl ?_ ?_ ⟨rfl, rfl, rfl⟩
            · simp only [paragraphScope, headingView_opens, ParagraphProperties.opened]
              split <;> exact ⟨rfl, rfl⟩
            · intro formatting _
              simp only [paragraphScope, headingView_opens]
              rw [ParagraphProperties.opened_style attributes formatting]
              rfl
        | level | numberingId =>
            obtain rfl := eq_of_beq allowed
            refine inside.around rfl ?_ ?_ ⟨rfl, rfl, rfl⟩
            · simp only [paragraphScope, headingView_opens, ParagraphProperties.opened]
              split <;> exact ⟨rfl, rfl⟩
            · intro formatting listing
              have list := listing rfl
              simp only [paragraphScope, headingView_opens]
              rw [ParagraphProperties.opened_list attributes ?_ formatting list]
              · rfl
              · simp
        | _ => exact inside.around rfl ⟨rfl, rfl⟩ (fun _ _ => rfl) ⟨rfl, rfl, rfl⟩

def formattings (_ancestors : List Kind) (tag : Tag) : Bool := tag == .paragraphFormat

/-- Where paragraph formatting ended the properties are gone. -/
theorem headingView_traces_ended :
    (headingView context).Traces anyGrammar formattings
      (fun _ before mentioned after =>
        mentioned ≠ [] ∨ before.properties.Empty → after.properties.Empty) where
  nil _ _ held := held.resolve_left (fun some => some rfl)
  append _ _ _ _ former latter first rest := by
    rintro (some | empty)
    · apply rest
      cases former with
      | nil => exact .inl some
      | cons mention mentions => exact .inr (first (.inl (List.cons_ne_nil _ _)))
    · exact rest (.inr (first (.inr empty)))
  text _ _ _ held := held.resolve_left (fun some => some rfl)
  element ancestors attributes kind before inner mentioned _ _ inside held := by
    by_cases ends : kind = .content .paragraphFormat
    · -- The end of formatting empties the properties, whatever was inside.
      subst ends
      exact ⟨rfl, rfl⟩
    · have none : kind.mention formattings ancestors attributes = [] := by
        cases kind with
        | branch | other => rfl
        | content tag =>
            have other : tag ≠ .paragraphFormat := by
              rintro rfl
              exact ends rfl
            simp [Kind.mention, formattings, other]
      rw [none, List.nil_append] at held
      apply ParagraphProperties.Empty.closed
      apply inside
      rcases held with some | empty
      · exact .inl some
      · exact .inr (empty.opened attributes ends)

/-! ## Around formatting -/

/-- After its formatting a paragraph without others inside is not reported again. -/
theorem headingView_keeps_started (started : List ParagraphFormat) :
    (headingView context).Keeps contentGrammar
      (fun _ heading => heading.pending = false ∧ heading.started = started) where
  opens _ attributes kind heading allowed _ held := by
    obtain ⟨reported, same⟩ := held
    rw [contentGrammar, Bool.and_eq_true, bne_iff_ne] at allowed
    constructor
    · exact beq_false_of_ne allowed.1
    · simp only [headingView, Heading.opened, reported, Bool.false_and, Bool.false_eq_true,
        if_false, same]
  closes _ kind _ heading allowed _ held := by
    obtain ⟨reported, same⟩ := held
    rw [contentGrammar, Bool.and_eq_true, bne_iff_ne, bne_iff_ne] at allowed
    constructor
    · simp only [headingView, Heading.closed, reported, Bool.false_and]
    · simp only [headingView, Heading.closed, if_neg allowed.2, same]
  texts _ _ _ held := held

theorem headingView_keeps_idle (before : Heading) :
    (headingView context).Keeps emptyGrammar (fun _ heading => heading = before) where
  opens _ _ _ _ allowed := by cases allowed
  closes _ _ _ _ allowed := by cases allowed
  texts _ _ _ held := held

/-! ## What is reported of a paragraph -/

/-- Of a paragraph that has its formatting first that formatting's end is reported last. -/
theorem headingView_through_paragraph {before : Heading} {ancestors : List Kind}
    {formatTag : String} {formatAttributes : Attributes} {lead inner rest : List Tree}
    (attributes : Attributes) (suits : before.Suits ancestors)
    (formatFound : Kind.ofTag? formatTag = some (.content .paragraphFormat))
    (first : followsOfList context emptyGrammar [] lead = true)
    (only : followsOfList context contentGrammar [] rest = true) :
    let begun := before.opened attributes (.content .paragraph)
    let entered := begun.opened formatAttributes (.content .paragraphFormat)
    let ended := (headingView context).throughList inner entered
    ∃ started : List ParagraphFormat,
      ((headingView context).throughList
          (lead ++ .element formatTag formatAttributes inner :: rest) begun).started =
        before.started ++ (started ++ [ended.properties.format]) := by
  intro begun entered ended
  have enteredSuits : entered.Suits (.content .paragraphFormat :: .content .paragraph :: ancestors) :=
    (suits.opened attributes _).opened formatAttributes _
  have endedSuits : ended.Suits (.content .paragraphFormat :: .content .paragraph :: ancestors) :=
    headingView_keeps.throughList followsOfList_any enteredSuits
  -- Only directly inside a paragraph one can be pending, so none is where its formatting ends.
  have reported : ended.pending = false := by
    rw [Bool.eq_false_iff]
    intro pends
    cases endedSuits.pending pends
  have grown : before.started <+: ended.started := by
    apply (headingView_keeps_reported before.started).throughList (@followsOfList_any context inner [])
    exact (before.started_prefix_opened attributes _).trans
      (begun.started_prefix_opened formatAttributes _)
  obtain ⟨started, same⟩ := grown
  let left := ended.closed (.content .paragraphFormat)
  have leftReported : left.pending = false ∧
      left.started = before.started ++ (started ++ [ended.properties.format]) := by
    constructor
    · simp only [left, Heading.closed, reported, Bool.false_and]
    · rw [← List.append_assoc, same]
      rfl
  refine ⟨started, ?_⟩
  rw [View.throughList_append, (headingView_keeps_idle begun).throughList first rfl,
    View.throughList, View.through_element formatFound rfl]
  exact ((headingView_keeps_started _).throughList only leftReported).2

/-- Whatever was told before it and whatever the policies, a paragraph outside paragraph formatting that
holds no other, and has its formatting first, is last reported with the formatting at the end of that. These
are the properties that the formatting gives where it keeps to the grammar, and none where other paragraph
formatting is inside of it. -/
theorem reportedAt_paragraph {place : Place} {tag formatTag : String}
    {attributes formatAttributes : Attributes} {lead inner rest : List Tree} {turns : List Turn}
    (named : (place.fill (.element tag attributes
      (lead ++ .element formatTag formatAttributes inner :: rest))).all Tree.isNamed = true)
    (shown : isShown context place = true) (found : Kind.ofTag? tag = some (.content .paragraph))
    (formatFound : Kind.ofTag? formatTag = some (.content .paragraphFormat))
    (outside : within (ancestorsOf place) .paragraphFormat = false)
    (first : followsOfList context emptyGrammar [] lead = true)
    (only : followsOfList context contentGrammar [] rest = true)
    (told : turns.map Prod.snd = (place.fill (.element tag attributes
      (lead ++ .element formatTag formatAttributes inner :: rest))).calls) :
    ∃ (early : List Event) (format : ParagraphFormat),
      reportedAt context place (.element tag attributes
          (lead ++ .element formatTag formatAttributes inner :: rest)) turns =
        early ++ [.paragraphEnd] ∧
        (early.filterMap startedFormat?).getLast? = some format ∧
          (followsOfList context propertyGrammar [.content .paragraphFormat] inner = true →
            format = givenFormat {}
              (mentionsOfList context ownProperties [.content .paragraphFormat] inner)) ∧
            (mentionsOfList context formattings [] inner ≠ [] → format = {}) := by
  obtain ⟨filled, early, filledEvents, reported, read⟩ :=
    (headingView context).exists_reportedAt found rfl named shown (fun _ _ => trivial) told
  have suits := headingView_keeps.at_place place Heading.Suits.initial named shown follows_any
    (fun _ _ => trivial) (told_before told)
  let reached := Session.turns context {} (turns.take place.before.length)
  let before := (headingView context).of reached
  let entered := (before.opened attributes (.content .paragraph)).opened formatAttributes
    (.content .paragraphFormat)
  let ended := (headingView context).throughList inner entered
  have plain : entered.properties.format = {} := suits.plain (suits.formatting.eq_false outside)
  refine ⟨early, ended.properties.format, reported, ?_, ?_, ?_⟩
  · obtain ⟨started, last⟩ := headingView_through_paragraph attributes suits formatFound first only
    have whole : filled.events.toList.filterMap startedFormat? =
        reached.events.toList.filterMap startedFormat? ++
          (started ++ [ended.properties.format]) := (congrArg Heading.started read).trans last
    rw [filledEvents, Array.toList_appendList, List.filterMap_append] at whole
    rw [List.append_cancel_left whole, List.getLast?_concat]
  · intro following
    obtain ⟨_, _, format⟩ := headingView_traces_own.throughList entered following rfl
      (fun same => by cases same)
    have own : ended.properties.format = givenFormat entered.properties.format
        (mentionsOfList context ownProperties [.content .paragraphFormat] inner) := format
    rw [own, plain]
  · intro nested
    exact (headingView_traces_ended.throughList entered followsOfList_any (.inl nested)).2

def valued (tag : Tag) (value : String) : Tree :=
  wordElement tag [(joinName wordSpace "val", value)] []

/-- The formatting of a paragraph in a list, with a record of the style that it had. -/
def restyledFormat : List Tree :=
  [valued .paragraphStyle "New",
   wordElement .numbering [] [valued .level "1", valued .numberingId "5"],
   .element (joinName wordSpace "pPrChange") []
    [wordElement .paragraphFormat [] [valued .paragraphStyle "Old"]]]

def restyledParagraph : Tree :=
  wordElement .paragraph []
    [wordElement .paragraphFormat [] restyledFormat,
     wordElement .run [] [wordElement .text [] [.text "x"]]]

/-- With a record of former formatting a paragraph is first reported with some of that, and then with no
properties at all. -/
theorem reportedAt_restyledParagraph :
    givenFormat {} (mentionsOfList {} ownProperties [.content .paragraphFormat] restyledFormat) =
        { style := some "New", level := 1, numbering := 5 } ∧
      reportedAt {} .root restyledParagraph (restyledParagraph.calls.map fun call => ({}, call)) =
        [.paragraphStart { style := some "Old", level := 1, numbering := 5 }, .paragraphStart {},
         .run {} "x", .paragraphEnd] := by
  decide +kernel

/-- The formatting of a heading in a list, of which the change of style is recorded without the former. -/
def headingFormat : List Tree :=
  [valued .paragraphStyle "Heading1",
   wordElement .numbering [] [valued .level " 2 ", valued .numberingId "many"],
   .element (joinName wordSpace "pPrChange") [] []]

def headingParagraph : Tree :=
  wordElement .paragraph []
    ([.text "\n"] ++ wordElement .paragraphFormat [] headingFormat ::
      [wordElement .run [] [wordElement .text [] [.text "x"]]])

/-- In a cell, after a paragraph. -/
def inCell : Place :=
  .inside .root (joinName wordSpace "tc") [] [wordElement .paragraph [] []] []

theorem reportedAt_headingParagraph :
    followsOfList {} propertyGrammar [.content .paragraphFormat] headingFormat = true ∧
      ∃ (early : List Event) (format : ParagraphFormat),
        reportedAt {} inCell headingParagraph
            ((inCell.fill headingParagraph).calls.map fun call => ({}, call)) =
          early ++ [.paragraphEnd] ∧
          (early.filterMap startedFormat?).getLast? = some format ∧
            format = { style := some "Heading1", level := 2 } := by
  have named : (inCell.fill headingParagraph).all Tree.isNamed = true := by
    simp [inCell, headingParagraph, headingFormat, valued, Place.fill, wordElement, Tree.all,
      Tree.allOfList, Tree.isNamed]
  have shown : isShown {} inCell = true := by decide +kernel
  have found : Kind.ofTag? (joinName wordSpace Tag.paragraph.name) = some (.content .paragraph) :=
    Kind.ofTag?_wordSpace (by decide)
  have formatFound : Kind.ofTag? (joinName wordSpace Tag.paragraphFormat.name) =
      some (.content .paragraphFormat) := Kind.ofTag?_wordSpace (by decide)
  have outside : within (ancestorsOf inCell) .paragraphFormat = false := by decide +kernel
  have first : followsOfList {} emptyGrammar [] [.text "\n"] = true := by decide +kernel
  have only : followsOfList {} contentGrammar []
      [wordElement .run [] [wordElement .text [] [.text "x"]]] = true := by decide +kernel
  have following : followsOfList {} propertyGrammar [.content .paragraphFormat] headingFormat =
      true := by decide +kernel
  have format : givenFormat {}
      (mentionsOfList {} ownProperties [.content .paragraphFormat] headingFormat) =
        { style := some "Heading1", level := 2 } := by
    decide +kernel
  refine ⟨following, ?_⟩
  obtain ⟨early, own, reported, last, given, _⟩ := reportedAt_paragraph named shown found
    formatFound outside first only (told_of_constant {} (inCell.fill headingParagraph).calls)
  exact ⟨early, own, reported, last, (given following).trans format⟩

end WordStream.Body

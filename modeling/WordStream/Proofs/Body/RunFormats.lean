import WordStream.Proofs.Body.FormatScope
import WordStream.Proofs.Body.Report

/-!
# The formatting of runs

A run is reported when it ends, with the formatting that was switched last. A translation switches it by two
flags, one for an open run and one for open run formatting. Where run formatting stands directly in runs this
is the run's own formatting; where it is inside other run formatting its end clears the flag for both.
-/

set_option autoImplicit false

namespace WordStream.Body

open Markup (Attributes Call Place Tree joinName)
open Ancestry (within)

variable {context : Context}

/-! ## Formatting of its own -/

/-- What an element that switches a kind of formatting switches it to. -/
def switched? (tag : Tag) : Mention → Option Bool
  | (found, attributes) => if found = tag then some (switchedOn attributes) else none

/-- The formatting once elements were mentioned, of which the last for each kind counts. -/
def switchedFormat (format : RunFormat) (mentioned : List Mention) : RunFormat where
  bold := (mentioned.filterMap (switched? .bold)).getLast?.getD format.bold
  italic := (mentioned.filterMap (switched? .italic)).getLast?.getD format.italic

theorem switchedFormat_append (format : RunFormat) (former latter : List Mention) :
    switchedFormat format (former ++ latter) =
      switchedFormat (switchedFormat format former) latter := by
  simp only [switchedFormat, List.filterMap_append, List.getLast?_append, Option.getD_or]

/-- The elements that switch formatting directly in the formatting of a run. -/
def ownSwitches (ancestors : List Kind) (tag : Tag) : Bool :=
  (tag == .bold || tag == .italic) && ancestors == [.content .runFormat, .content .run]

/-- In a run no run is inside, its formatting stands directly in it, and what switches formatting stands
directly in that. -/
def runGrammar : Grammar := fun ancestors kind =>
  match kind with
  | .content .run => false
  | .content .runFormat => ancestors == [.content .run]
  | .content .bold | .content .italic => ancestors == [.content .runFormat, .content .run]
  | _ => true

/-! ## The formatting that is kept -/

/-- What a translation knows of the formatting of runs. -/
structure Formatting where
  inRun : Bool
  inRunFormat : Bool
  format : RunFormat
deriving DecidableEq, Repr

namespace Formatting

def opened (attributes : Attributes) (formatting : Formatting) : Kind → Formatting
  | .content .run => { formatting with inRun := true }
  | .content .runFormat => { formatting with inRunFormat := true }
  | .content .bold =>
      if formatting.inRun && formatting.inRunFormat then
        { formatting with format := { formatting.format with bold := switchedOn attributes } }
      else formatting
  | .content .italic =>
      if formatting.inRun && formatting.inRunFormat then
        { formatting with format := { formatting.format with italic := switchedOn attributes } }
      else formatting
  | _ => formatting

def closed (formatting : Formatting) : Kind → Formatting
  | .content .run => { formatting with inRun := false, format := {} }
  | .content .runFormat => { formatting with inRunFormat := false }
  | _ => formatting

theorem opened_inRun (attributes : Attributes) (formatting : Formatting) (kind : Kind) :
    (formatting.opened attributes kind).inRun =
      (kind == .content .run || formatting.inRun) := by
  cases kind with
  | branch | other => rfl
  | content tag =>
      cases tag with
      | bold | italic =>
          rw [opened]
          split <;> rfl
      | _ => rfl

theorem closed_inRun (formatting : Formatting) (kind : Kind) :
    (formatting.closed kind).inRun = (kind != .content .run && formatting.inRun) := by
  cases kind with
  | branch | other => rfl
  | content tag => cases tag <;> rfl

theorem closed_format (formatting : Formatting) {kind : Kind} (other : kind ≠ .content .run) :
    (formatting.closed kind).format = formatting.format := by
  cases kind with
  | branch | other => rfl
  | content tag =>
      cases tag with
      | run => exact absurd rfl other
      | _ => rfl

/-- Outside runs nothing that switches formatting is heard. -/
theorem opened_format {formatting : Formatting} (attributes : Attributes) (kind : Kind)
    (outside : formatting.inRun = false) :
    (formatting.opened attributes kind).format = formatting.format := by
  cases kind with
  | branch | other => rfl
  | content tag =>
      cases tag with
      | bold | italic => rw [opened, outside, Bool.false_and, if_neg Bool.false_ne_true]
      | _ => rfl

/-- Where both flags are set an element that switches formatting is heard. -/
theorem opened_switch {formatting : Formatting} {tag : Tag} (attributes : Attributes)
    (switches : tag = .bold ∨ tag = .italic) (running : formatting.inRun = true)
    (formatted : formatting.inRunFormat = true) :
    formatting.opened attributes (.content tag) =
      { formatting with format := switchedFormat formatting.format [(tag, attributes)] } := by
  have both : (formatting.inRun && formatting.inRunFormat) = true := by
    rw [running, formatted]
    rfl
  rcases switches with rfl | rfl
  · exact if_pos both
  · exact if_pos both

theorem plain_opened {formatting : Formatting}
    (plain : formatting.inRun = false → formatting.format = {}) (attributes : Attributes)
    (kind : Kind) :
    (formatting.opened attributes kind).inRun = false →
      (formatting.opened attributes kind).format = {} := by
  rw [opened_inRun]
  intro outside
  rw [Bool.or_eq_false_iff] at outside
  rw [opened_format attributes kind outside.2]
  exact plain outside.2

theorem plain_closed {formatting : Formatting}
    (plain : formatting.inRun = false → formatting.format = {}) (kind : Kind) :
    (formatting.closed kind).inRun = false → (formatting.closed kind).format = {} := by
  rw [closed_inRun]
  intro outside
  by_cases ends : kind = .content .run
  · rw [ends]
    rfl
  · rw [bne_iff_ne.2 ends, Bool.true_and] at outside
    exact (closed_format formatting ends).trans (plain outside)

end Formatting

def State.formatting (state : State) : Formatting where
  inRun := state.inRun
  inRunFormat := state.inRunFormat
  format := state.runFormat

theorem startKind_formatting (attributes : Attributes) (state : State) (kind : Kind) :
    (startKind context attributes { state with paragraphPending := false } kind).state.formatting =
      state.formatting.opened attributes kind := by
  rw [state_startKind]
  cases kind with
  | branch | other => rfl
  | content tag =>
      cases tag with
      | bold | italic =>
          exact apply_ite (Formatting.mk state.inRun state.inRunFormat) _ _ _
      | _ => rfl

theorem finishKind_formatting (state : State) (kind : Kind) :
    (finishKind context state kind).state.formatting = state.formatting.closed kind := by
  rw [state_finishKind]
  cases kind with
  | branch | other => rfl
  | content tag => cases tag <;> rfl

def formattingView (context : Context) : View context Formatting where
  read state _ := state.formatting
  opens attributes kind formatting := formatting.opened attributes kind
  closes kind formatting := formatting.closed kind
  texts _ formatting := formatting
  allows _ := True
  read_start state _ attributes kind := startKind_formatting attributes state kind
  read_finish state _ kind := finishKind_formatting state kind
  read_text policy state _ content _ := by split <;> rfl

theorem formattingView_closes (kind : Kind) (formatting : Formatting) :
    (formattingView context).closes kind formatting = formatting.closed kind := rfl

theorem formattingView_opens (attributes : Attributes) (kind : Kind) (formatting : Formatting) :
    (formattingView context).opens attributes kind formatting =
      formatting.opened attributes kind := rfl

/-- Outside runs no formatting is switched on. -/
theorem formattingView_keeps :
    (formattingView context).Keeps anyGrammar
      (fun ancestors formatting => SetWithin formatting.inRun ancestors .run ∧
        (formatting.inRun = false → formatting.format = {})) where
  opens ancestors attributes kind formatting _ _ held := by
    obtain ⟨suits, plain⟩ := held
    refine ⟨?_, Formatting.plain_opened plain attributes kind⟩
    rw [formattingView_opens, Formatting.opened_inRun]
    exact suits.opened kind
  closes ancestors kind _ formatting _ _ held := by
    obtain ⟨suits, plain⟩ := held
    refine ⟨?_, Formatting.plain_closed plain kind⟩
    rw [formattingView_closes, Formatting.closed_inRun]
    exact suits.closed
  texts _ _ _ held := held

def runScope : FormatScope Formatting RunFormat where
  outer := .content .run
  inner := .content .runFormat
  inOuter := Formatting.inRun
  inInner := Formatting.inRunFormat
  format := Formatting.format
  given := switchedFormat
  given_nil _ := rfl
  given_append := switchedFormat_append

/-- Within a run that keeps to the grammar the formatting is what its own elements switch. -/
theorem formattingView_traces :
    (formattingView context).Traces runGrammar ownSwitches runScope.Follows where
  nil _ _ := .nil
  append _ _ _ _ _ _ first rest := first.append rest
  text _ _ _ := .nil
  element ancestors attributes kind before inner mentioned allowed _ inside := by
    cases kind with
    | branch | other =>
        exact inside.around rfl ⟨rfl, rfl⟩ (fun _ _ => rfl) ⟨rfl, rfl, rfl⟩
    | content tag =>
        cases tag with
        | run => cases allowed
        | runFormat =>
            obtain rfl := eq_of_beq allowed
            exact inside.enter ⟨rfl, rfl, rfl⟩ ⟨rfl, rfl⟩
        | bold | italic =>
            obtain rfl := eq_of_beq allowed
            refine inside.around rfl ?_ ?_ ⟨rfl, rfl, rfl⟩
            · rw [formattingView_opens, Formatting.opened]
              split <;> exact ⟨rfl, rfl⟩
            · intro running formatted
              have flag := formatted rfl
              rw [formattingView_opens, Formatting.opened_switch attributes ?_ running flag]
              · rfl
              · simp
        | _ => exact inside.around rfl ⟨rfl, rfl⟩ (fun _ _ => rfl) ⟨rfl, rfl, rfl⟩

/-! ## What is reported of a run -/

/-- Whatever was told before it and whatever the policies, a run that no run surrounds and that keeps to the
grammar is reported with the formatting that its own elements switch. -/
theorem reportedAt_run {place : Place} {tag : String} {attributes : Attributes}
    {children : List Tree} {turns : List Turn}
    (named : (place.fill (.element tag attributes children)).all Tree.isNamed = true)
    (shown : isShown context place = true) (found : Kind.ofTag? tag = some (.content .run))
    (alone : within (ancestorsOf place) .run = false)
    (following : followsOfList context runGrammar [.content .run] children = true)
    (told : turns.map Prod.snd = (place.fill (.element tag attributes children)).calls) :
    ∃ (early : List Event) (text : String),
      reportedAt context place (.element tag attributes children) turns =
        early ++ [.run
          (switchedFormat {} (mentionsOfList context ownSwitches [.content .run] children)) text] := by
  obtain ⟨filled, early, _, reported, read⟩ := (formattingView context).exists_reportedAt found rfl
    named shown (fun _ _ => trivial) told
  have outside := formattingView_keeps.at_place place ⟨.unset, fun _ => rfl⟩ named shown follows_any
    (fun _ _ => trivial) (told_before told)
  let before := (formattingView context).of
    (Session.turns context {} (turns.take place.before.length))
  have plain : before.format = {} := outside.2 (outside.1.eq_false alone)
  obtain ⟨_, _, format⟩ := formattingView_traces.throughList
    ((formattingView context).opens attributes (.content .run) before) following rfl
    (fun same => by cases same)
  have own : filled.state.runFormat =
      switchedFormat {} (mentionsOfList context ownSwitches [.content .run] children) := by
    rw [← plain]
    rw [← read] at format
    exact format
  refine ⟨early, filled.state.buffer, ?_⟩
  rw [reported, ← own]
  rfl

/-- A run that is not bold any more, with a record that it was. -/
def formerlyBold : Tree :=
  wordElement .run []
    [wordElement .runFormat []
      [wordElement .bold [(joinName wordSpace "val", "0")] [],
       .element (joinName wordSpace "rPrChange") []
        [wordElement .runFormat [] [wordElement .bold [] []]]],
     wordElement .text [] [.text "x"]]

/-- What former formatting switches is reported as the run's own. -/
theorem reportedAt_formerlyBold :
    switchedFormat {} (mentions {} ownSwitches [] formerlyBold) = {} ∧
      reportedAt {} .root formerlyBold (formerlyBold.calls.map fun call => ({}, call)) =
        [.run { bold := true } "x"] := by
  decide +kernel

/-- After formatting of a paragraph's mark. -/
def afterMark : Place :=
  .inside .root (joinName wordSpace "p") []
    [wordElement .paragraphFormat [] [wordElement .runFormat [] [wordElement .italic [] []]]] []

/-- The children of a run that is bold and switches italics off. -/
def boldChildren : List Tree :=
  [wordElement .runFormat []
    [wordElement .bold [] [], wordElement .italic [(joinName wordSpace "val", " Off ")] [],
     .element (joinName wordSpace "rPrChange") [] []],
   wordElement .text [] [.text "x"]]

theorem reportedAt_boldChildren :
    isShown {} afterMark = true ∧
      ∃ (early : List Event) (text : String),
        reportedAt {} afterMark (wordElement .run [] boldChildren)
            ((afterMark.fill (wordElement .run [] boldChildren)).calls.map fun call => ({}, call)) =
          early ++ [.run { bold := true } text] := by
  have named : (afterMark.fill (wordElement .run [] boldChildren)).all Tree.isNamed = true := by
    simp [afterMark, boldChildren, Place.fill, wordElement, Tree.all, Tree.allOfList, Tree.isNamed]
  have shown : isShown {} afterMark = true := by decide +kernel
  have found : Kind.ofTag? (joinName wordSpace Tag.run.name) = some (.content .run) :=
    Kind.ofTag?_wordSpace (by decide)
  have alone : within (ancestorsOf afterMark) .run = false := by decide +kernel
  have following : followsOfList {} runGrammar [.content .run] boldChildren = true := by
    decide +kernel
  have format : switchedFormat {} (mentionsOfList {} ownSwitches [.content .run] boldChildren) =
      { bold := true } := by
    decide +kernel
  refine ⟨shown, ?_⟩
  rw [← format]
  exact reportedAt_run named shown found alone following (told_of_constant {} _)

end WordStream.Body

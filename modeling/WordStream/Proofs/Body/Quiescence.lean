import WordStream.Proofs.Body.Heading
import WordStream.Proofs.Body.RunFormats
import WordStream.Proofs.Body.Skeleton
import WordStream.Proofs.Body.Stackless

/-!
# After a whole body

A flag is set within its elements only, though the first end clears it for all of them. Once a whole body was
told nothing is open, so every flag is clear again, no edit is in force and no formatting is kept. Only
what no run or picture has taken is left: text, and data of pictures.
-/

set_option autoImplicit false

namespace WordStream.Body

open Markup (Attributes Call Tree)

variable {context : Context}

/-! ## The flags -/

/-- The flags that a translation keeps besides those of its formats, and the edit in force. -/
structure Flags where
  inRunFormat : Bool
  inText : Bool
  inNumbering : Bool
  inPicture : Bool
  inDeletedText : Bool
  edit : EditKind
deriving DecidableEq, Repr

namespace Flags

def opened (kind : Kind) (flags : Flags) : Flags where
  inRunFormat := kind == .content .runFormat || flags.inRunFormat
  inText := kind == .content .text || flags.inText
  inNumbering := kind == .content .numbering || flags.inNumbering
  inPicture := kind == .content .picture || flags.inPicture
  inDeletedText := kind == .content .deletedText || flags.inDeletedText
  edit := kind.editWithin flags.edit

/-- The flags after an end. The end of a picture of either kind clears the one flag for pictures. -/
def closed (kind : Kind) (flags : Flags) : Flags where
  inRunFormat := kind != .content .runFormat && flags.inRunFormat
  inText := kind != .content .text && flags.inText
  inNumbering := kind != .content .numbering && flags.inNumbering
  inPicture := kind != .content .legacyPicture && (kind != .content .picture && flags.inPicture)
  inDeletedText := kind != .content .deletedText && flags.inDeletedText
  edit := kind.editAfter flags.edit

end Flags

def State.flags (state : State) : Flags where
  inRunFormat := state.inRunFormat
  inText := state.inText
  inNumbering := state.inNumbering
  inPicture := state.inPicture
  inDeletedText := state.inDeletedText
  edit := state.edit

theorem startKind_state_flags (attributes : Attributes) (state : State) (kind : Kind) :
    (startKind context attributes { state with paragraphPending := false } kind).state.flags =
      state.flags.opened kind :=
  congrArg State.flags (state_startKind attributes _ kind)

theorem finishKind_state_flags (state : State) (kind : Kind) :
    (finishKind context state kind).state.flags = state.flags.closed kind := by
  rw [state_finishKind]
  cases kind with
  | branch | other => rfl
  | content tag => cases tag <;> rfl

def flagsView (context : Context) : View context Flags where
  read state _ := state.flags
  opens _ kind flags := flags.opened kind
  closes kind flags := flags.closed kind
  texts _ flags := flags
  allows _ := True
  read_start state _ attributes kind := startKind_state_flags attributes state kind
  read_finish state _ kind := finishKind_state_flags state kind
  read_text policy state _ content _ := by split <;> rfl

/-- What the flags tell of the open elements. -/
structure Flags.Suits (ancestors : List Kind) (flags : Flags) : Prop where
  runFormat : SetWithin flags.inRunFormat ancestors .runFormat
  text : SetWithin flags.inText ancestors .text
  numbering : SetWithin flags.inNumbering ancestors .numbering
  picture : SetWithin flags.inPicture ancestors .picture
  deletedText : SetWithin flags.inDeletedText ancestors .deletedText
  edit : flags.edit = .none ∨ ancestors.any Kind.edits = true

namespace Flags.Suits

variable {ancestors : List Kind} {flags : Flags} {kind : Kind}

theorem initial : ((flagsView context).of {}).Suits [] where
  runFormat := .unset
  text := .unset
  numbering := .unset
  picture := .unset
  deletedText := .unset
  edit := .inl rfl

theorem opened (suits : flags.Suits ancestors) (kind : Kind) :
    (flags.opened kind).Suits (kind :: ancestors) where
  runFormat := suits.runFormat.opened kind
  text := suits.text.opened kind
  numbering := suits.numbering.opened kind
  picture := suits.picture.opened kind
  deletedText := suits.deletedText.opened kind
  edit := by
    rw [List.any_cons, Bool.or_eq_true]
    cases kind with
    | branch | other => exact suits.edit.imp_right .inr
    | content tag =>
        cases tag with
        | edit kind => exact .inr (.inl rfl)
        | _ => exact suits.edit.imp_right .inr

theorem closed (suits : flags.Suits (kind :: ancestors)) :
    (flags.closed kind).Suits ancestors where
  runFormat := suits.runFormat.closed
  text := suits.text.closed
  numbering := suits.numbering.closed
  picture := by
    intro set
    rw [Flags.closed, Bool.and_eq_true] at set
    exact suits.picture.closed set.2
  deletedText := suits.deletedText.closed
  edit := by
    have around := suits.edit
    rw [List.any_cons, Bool.or_eq_true] at around
    cases kind with
    | branch | other => exact around.imp_right fun within => within.resolve_left Bool.false_ne_true
    | content tag =>
        cases tag with
        | edit kind => exact .inl rfl
        | _ => exact around.imp_right fun within => within.resolve_left Bool.false_ne_true

end Flags.Suits

theorem flagsView_keeps : (flagsView context).Keeps anyGrammar Flags.Suits where
  opens _ _ kind _ _ _ suits := suits.opened kind
  closes _ _ _ _ _ _ suits := suits.closed
  texts _ _ _ suits := suits

/-! ## The elements that were counted -/

/-- The number of elements that calls begin. -/
def begunIn : List Call → Nat
  | [] => 0
  | call :: rest => Session.begun call + begunIn rest

theorem begunIn_append (former latter : List Call) :
    begunIn (former ++ latter) = begunIn former + begunIn latter := by
  induction former with
  | nil => rw [List.nil_append, begunIn, Nat.zero_add]
  | cons call rest ih => rw [List.cons_append, begunIn, begunIn, ih, Nat.add_assoc]

theorem elements_turns (session : Session) (turns : List Turn) :
    (session.turns context turns).elements =
      session.elements + begunIn (turns.map Prod.snd) := by
  induction turns generalizing session with
  | nil => rfl
  | cons turn rest ih =>
      obtain ⟨policy, call⟩ := turn
      rw [Session.turns_cons, ih, List.map_cons, begunIn, ← Nat.add_assoc]
      rfl

mutual

theorem begunIn_calls : ∀ tree : Tree, begunIn tree.calls = tree.size
  | .text content => by
      rw [Tree.calls, Tree.size]
      rfl
  | .element tag attributes children => by
      rw [Tree.calls, Tree.size, begunIn, begunIn_append, begunIn_callsOfList children]
      rfl

theorem begunIn_callsOfList :
    ∀ trees : List Tree, begunIn (Tree.callsOfList trees) = Tree.sizeOfList trees
  | [] => by
      rw [Tree.callsOfList, Tree.sizeOfList, begunIn]
  | tree :: trees => by
      rw [Tree.callsOfList, Tree.sizeOfList, begunIn_append, begunIn_calls tree,
        begunIn_callsOfList trees]

end

/-! ## A whole body -/

variable {tree : Tree} {turns : List Turn}

/-- What an invariant says of no open elements holds after a whole body. -/
theorem View.Keeps.after {Value : Type} {view : View context Value}
    {invariant : List Kind → Value → Prop} (keeps : view.Keeps anyGrammar invariant)
    (initial : invariant [] (view.of {})) (named : tree.all Tree.isNamed = true)
    (allowed : ∀ policy, view.allows policy) (told : turns.map Prod.snd = tree.calls) :
    invariant [] (view.of (Session.turns context {} turns)) := by
  have outside : ({} : Session).state.gated context = false := by simp [State.gated]
  rw [view.of_turns outside named (fun turn _ => allowed turn.1) told]
  exact keeps.traces.through _ follows_any initial

/-- With no flag set, no edit in force and no formatting kept only text and picture data are left. -/
theorem State.eq_of_suits {state : State} (flags : state.flags.Suits [])
    (pending : state.paragraphPending = false)
    (run : state.inRun = false ∧ state.runFormat = {})
    (paragraph : state.inParagraphFormat = false ∧ state.paragraphFormat = {})
    (depths : state.depths = (0, 0)) :
    state =
      { pictureId := state.pictureId
        pictureDescription := state.pictureDescription
        buffer := state.buffer } := by
  have runFormat := flags.runFormat.eq_false rfl
  have text := flags.text.eq_false rfl
  have numbering := flags.numbering.eq_false rfl
  have picture := flags.picture.eq_false rfl
  have deletedText := flags.deletedText.eq_false rfl
  have edit : state.edit = .none := flags.edit.resolve_right Bool.false_ne_true
  obtain ⟨choices, fallbacks⟩ := Prod.mk.inj depths
  cases state
  simp only [State.flags] at runFormat text numbering picture deletedText edit
  simp only at pending run paragraph choices fallbacks
  simp only [run, runFormat, text, paragraph, numbering, picture, deletedText, pending, edit,
    choices, fallbacks]

/-- Whatever the policies, after a whole body nothing is open any more: but for text that no run has taken and
data that no picture has taken the state is the one at the start, nothing is skipped, and all elements
were counted, those in skipped branches too. No name stopped the translation. -/
theorem turns_state_of_whole (named : tree.all Tree.isNamed = true)
    (attributed : tree.all hasNamedObject = true) (told : turns.map Prod.snd = tree.calls) :
    let session := Session.turns context {} turns
    session.state =
        { pictureId := session.state.pictureId
          pictureDescription := session.state.pictureDescription
          buffer := session.state.buffer } ∧
      session.state.gated context = false ∧
        session.elements = tree.size ∧ session.badName = false := by
  intro session
  have flags : session.state.flags.Suits [] :=
    flagsView_keeps.after .initial named (fun _ => trivial) told
  have heading : ((headingView context).of session).Suits [] :=
    headingView_keeps.after .initial named (fun _ => trivial) told
  obtain ⟨running, plain⟩ : SetWithin session.state.inRun [] .run ∧
      (session.state.inRun = false → session.state.runFormat = {}) :=
    formattingView_keeps.after ⟨.unset, fun _ => rfl⟩ named (fun _ => trivial) told
  have pending : session.state.paragraphPending = false := by
    rw [Bool.eq_false_iff]
    intro pends
    cases heading.pending pends
  have outside := running.eq_false rfl
  have unformatted := heading.formatting.eq_false rfl
  have ungated : ({} : Session).state.gated context = false := by simp [State.gated]
  refine ⟨?_, ?_, ?_, ?_⟩
  · exact State.eq_of_suits flags pending ⟨outside, plain outside⟩
      ⟨unformatted, heading.plain unformatted⟩ (turns_depths named told)
  · exact (turns_gated named told).trans ungated
  · have counted := @elements_turns context {} turns
    rw [told, begunIn_calls, Nat.zero_add] at counted
    exact counted
  · exact (reports_skeleton ungated named attributed told).named

/-- Runs and edits inside of one another, and the end of formatting in a skipped branch. -/
def overlappingBody : Tree :=
  wordElement .paragraph []
    [wordElement .run []
      [wordElement .runFormat [] [wordElement .runFormat [] [], wordElement .bold [] []],
       wordElement .run [] [wordElement .text [] [.text "inner"]],
       branchElement .choice [wordElement .paragraphFormat [] []],
       wordElement .picture [] [wordElement .legacyPicture [] []]],
     wordElement (.edit .insert) [] [wordElement (.edit .delete) [] [], wordElement .tab [] []]]

theorem turns_overlappingBody :
    let session := Session.turns {} {} (overlappingBody.calls.map fun call => ({}, call))
    session.state =
        { pictureId := session.state.pictureId
          pictureDescription := session.state.pictureDescription
          buffer := session.state.buffer } ∧
      session.state.gated {} = false ∧ session.elements = 14 ∧ session.badName = false := by
  have named : overlappingBody.all Tree.isNamed = true := by
    simp [overlappingBody, wordElement, branchElement, Tree.all, Tree.allOfList, Tree.isNamed]
  have attributed : overlappingBody.all hasNamedObject = true := by
    simp [overlappingBody, wordElement, branchElement, Tree.all, Tree.allOfList, hasNamedObject,
      Tree.hasNamedAttributes]
  have counted : overlappingBody.size = 14 := by
    simp [overlappingBody, wordElement, branchElement, Tree.size, Tree.sizeOfList]
  rw [← counted]
  exact turns_state_of_whole named attributed (told_of_constant _ _)

end WordStream.Body

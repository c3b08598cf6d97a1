import WordStream.Content.Sink
import WordStream.Proofs.Body.Passage

/-!
# Elements of no meaning

An element that is no branch and carries no content is not quite without effect: its start has a paragraph reported
that waited. A translation with such elements and one without them therefore differ in whether a paragraph
waits, and in when paragraphs are reported to start, but in nothing else.
-/

set_option autoImplicit false

namespace WordStream

/-- The events other than those that start a paragraph. -/
def substance (events : List Event) : List Event :=
  events.filter fun event => event.kind != .paragraphStart

theorem substance_append (former latter : List Event) :
    substance (former ++ latter) = substance former ++ substance latter :=
  List.filter_append _ _

/-- Plain text does not heed where paragraphs start. -/
theorem Sink.addAll_substance (policy : Policy) (plain : PlainText) (events : List Event) :
    (plainText policy).addAll plain (substance events) =
      (plainText policy).addAll plain events := by
  induction events generalizing plain with
  | nil => rfl
  | cons event rest ih =>
      cases event with
      | paragraphStart format => exact ih plain
      | _ => exact ih _

namespace Body

open Markup (Attributes)

/-- Whether a signal is the start or the end of an element that is no branch and carries no content. -/
def Signal.isUnknown : Signal → Bool
  | .start space name _ | .finish space name =>
      (Branch.of? space name).isNone && (Tag.ofName? name).isNone
  | .text _ | .blank _ => false

/-- Signals, and what is left of them without some of the unknown starts and ends. Those that are left out need
not be in pairs. -/
inductive Bares : List (Policy × Signal) → List (Policy × Signal) → Prop where
  | nil : Bares [] []
  | keep (policy : Policy) (signal : Signal) {whole bare : List (Policy × Signal)} :
      Bares whole bare → Bares ((policy, signal) :: whole) ((policy, signal) :: bare)
  | drop (policy : Policy) {signal : Signal} {whole bare : List (Policy × Signal)} :
      signal.isUnknown = true → Bares whole bare → Bares ((policy, signal) :: whole) bare

/-! ## Up to the paragraph that waits -/

/-- The state, but for whether a paragraph waits to be reported. -/
def State.settled (state : State) : State :=
  { state with paragraphPending := false }

/-- The outcome, but for whether a paragraph waits and for the paragraphs that are reported to start. -/
def Outcome.settled (outcome : Outcome) : Outcome where
  state := outcome.state.settled
  events := substance outcome.events
  badName := outcome.badName

variable {context : Context} {policy : Policy} {state : State}

theorem State.settled_counting (state : State) (kind : Kind) :
    (state.counting kind).settled = state.settled.counting kind := by
  cases kind with
  | branch branch => cases branch <;> rfl
  | content tag | other => rfl

theorem State.settled_discounting (state : State) (kind : Kind) :
    (state.discounting kind).settled = state.settled.discounting kind := by
  cases kind with
  | branch branch => cases branch <;> rfl
  | content tag | other => rfl

theorem substance_announcement (state : State) (kind : Kind) :
    substance (state.announcement kind) = [] := by
  rw [State.announcement]
  split <;> rfl

theorem finishKind_settled (state : State) (kind : Kind) :
    (finishKind context state.settled kind).settled = (finishKind context state kind).settled := by
  cases kind with
  | branch branch => cases branch <;> rfl
  | other => rfl
  | content tag => cases tag <;> rfl

/-- What comes of a signal, up to the paragraph that waits, does not depend on whether one waits. -/
theorem step_settled (context : Context) (policy : Policy) (state : State) (signal : Signal) :
    (step context policy state.settled signal).settled =
      (step context policy state signal).settled := by
  cases signal with
  | start space name attributes =>
      -- The gate does not heed whether a paragraph waits, so both starts pass it alike.
      have counted := State.settled_counting state (Kind.of space name)
      cases behind : (state.counting (Kind.of space name)).gated context with
      | true =>
          have settledBehind : (state.settled.counting (Kind.of space name)).gated context = true := by
            rw [← counted]
            exact behind
          rw [step, step, start_of_gated attributes behind, start_of_gated attributes settledBehind,
            ← counted]
          rfl
      | false =>
          rw [State.gated_counting, Bool.or_eq_false_iff] at behind
          have ungated : state.settled.gated context = false := behind.1
          rw [step, step, start_of_shown attributes behind.2 behind.1,
            start_of_shown attributes behind.2 ungated]
          simp only [Outcome.settled, substance_append, substance_announcement]
          rfl
  | finish space name =>
      cases gated : state.gated context with
      | true =>
          have settledGated : state.settled.gated context = true := gated
          rw [step, step, finish_of_gated gated, finish_of_gated settledGated,
            ← State.settled_discounting]
          rfl
      | false =>
          have settledUngated : state.settled.gated context = false := gated
          rw [step, step, finish_of_shown gated, finish_of_shown settledUngated]
          exact finishKind_settled state (Kind.of space name)
  | text text | blank text =>
      have written (keeps : Bool) :
          ({ state := if keeps then state.settled.write text else state.settled } : Outcome).settled =
            ({ state := if keeps then state.write text else state } : Outcome).settled := by
        cases keeps <;> rfl
      exact written _

theorem Kind.of_unknown {space : Option String} {name : String}
    (unknown : ((Branch.of? space name).isNone && (Tag.ofName? name).isNone) = true) :
    Kind.of space name = .other := by
  rw [Bool.and_eq_true, Option.isNone_iff_eq_none, Option.isNone_iff_eq_none] at unknown
  simp only [Kind.of, unknown.1, unknown.2]

theorem step_unknown {signal : Signal} (unknown : signal.isUnknown = true) :
    (step context policy state signal).settled = { state := state.settled } := by
  have passage := step_passage context policy state signal
  generalize step context policy state signal = outcome at passage
  cases passage with
  | counted attributes behind =>
      rw [Kind.of_unknown unknown]
      rfl
  | opened attributes shown ungated =>
      rw [Kind.of_unknown unknown]
      simp only [Outcome.settled, substance_append, substance_announcement]
      rfl
  | discounted behind | closed ungated =>
      rw [Kind.of_unknown unknown]
      rfl
  | kept tells ungated => rcases tells with rfl | rfl <;> cases unknown
  | dropped tells => rfl

/-! ## Whole runs -/

/-- Two sessions that differ in what an element of no meaning may change, and in nothing else. -/
structure Session.SameBut (whole bare : Session) : Prop where
  state : whole.state.settled = bare.state.settled
  events : substance whole.events.toList = substance bare.events.toList
  badName : whole.badName = bare.badName

namespace Session.SameBut

variable {whole bare : Session}

theorem refl (session : Session) : SameBut session session := ⟨rfl, rfl, rfl⟩

theorem take {wholeOutcome bareOutcome : Outcome} (same : SameBut whole bare)
    (settled : wholeOutcome.settled = bareOutcome.settled) :
    SameBut (whole.take wholeOutcome) (bare.take bareOutcome) where
  state := congrArg Outcome.state settled
  events := by
    have added : substance wholeOutcome.events = substance bareOutcome.events :=
      congrArg Outcome.events settled
    simp only [Session.take, Array.toList_appendList, substance_append, same.events, added]
  badName := by
    have named : wholeOutcome.settled.badName = bareOutcome.settled.badName := by rw [settled]
    have stopped : wholeOutcome.badName = bareOutcome.badName := named
    simp only [Session.take, same.badName, stopped]

theorem signal (same : SameBut whole bare) (policy : Policy) (signal : Signal) :
    SameBut (whole.signal context policy signal) (bare.signal context policy signal) := by
  refine same.take ?_
  rw [← step_settled, same.state, step_settled]

theorem unknown (same : SameBut whole bare) (policy : Policy) {signal : Signal}
    (unknown : signal.isUnknown = true) : SameBut (whole.signal context policy signal) bare where
  state := (congrArg Outcome.state (step_unknown unknown)).trans same.state
  events := by
    have added : substance (step context policy whole.state signal).events = [] :=
      congrArg Outcome.events (step_unknown unknown)
    rw [Session.signal, Session.take, Array.toList_appendList, substance_append, added,
      List.append_nil, same.events]
  badName := by
    have named : (step context policy whole.state signal).badName = false :=
      congrArg Outcome.badName (step_unknown unknown)
    rw [Session.signal, Session.take, named, Bool.or_false, same.badName]

theorem signals {wholeSequence bareSequence : List (Policy × Signal)} (same : SameBut whole bare)
    (bares : Bares wholeSequence bareSequence) :
    SameBut (whole.signals context wholeSequence) (bare.signals context bareSequence) := by
  induction bares generalizing whole bare with
  | nil => exact same
  | keep policy signal _ ih => exact ih (same.signal policy signal)
  | drop policy unknown _ ih => exact ih (same.unknown policy unknown)

end Session.SameBut

/-- Elements of no meaning are transparent. Whatever starts and ends of such elements are left out, the same
things are reported but for the starts of paragraphs, the state is the same but for whether a paragraph
waits, and a sink for plain text holds the same. -/
theorem signals_of_bares {whole bare : List (Policy × Signal)} (bares : Bares whole bare)
    (context : Context) (session : Session) :
    let wrapped := session.signals context whole
    let unwrapped := session.signals context bare
    substance wrapped.events.toList = substance unwrapped.events.toList ∧
      { wrapped.state with paragraphPending := unwrapped.state.paragraphPending } =
        unwrapped.state ∧
        wrapped.badName = unwrapped.badName ∧
          ∀ (policy : Policy) (plain : PlainText),
            (Sink.plainText policy).addAll plain wrapped.events.toList =
              (Sink.plainText policy).addAll plain unwrapped.events.toList := by
  intro wrapped unwrapped
  have same : Session.SameBut wrapped unwrapped := (Session.SameBut.refl session).signals bares
  refine ⟨same.events, ?_, same.badName, ?_⟩
  · have restored (state : State) :
        { state with paragraphPending := unwrapped.state.paragraphPending } =
          { state.settled with paragraphPending := unwrapped.state.paragraphPending } := rfl
    rw [restored, same.state]
    rfl
  · intro policy plain
    rw [← Sink.addAll_substance, same.events, Sink.addAll_substance]

/-- A paragraph of a run, and one without content. -/
def twoParagraphs : List (Policy × Signal) :=
  [({}, .start none "p" []), ({}, .start none "r" []), ({}, .start none "t" []), ({}, .text "x"),
   ({}, .finish none "t"), ({}, .finish none "r"), ({}, .finish none "p"),
   ({}, .start none "p" []), ({}, .finish none "p")]

/-- The same in a control each, of which the second makes its paragraph known. -/
def controlledParagraphs : List (Policy × Signal) :=
  [({}, .start none "p" []), ({}, .start none "sdt" []), ({}, .start none "r" []),
   ({}, .start none "t" []), ({}, .text "x"), ({}, .finish none "t"), ({}, .finish none "r"),
   ({}, .finish none "sdt"), ({}, .finish none "p"),
   ({}, .start none "p" []), ({}, .start none "sdt" []), ({}, .finish none "sdt"),
   ({}, .finish none "p")]

theorem signals_controlledParagraphs :
    Bares controlledParagraphs twoParagraphs ∧
      (Session.signals {} {} controlledParagraphs).events ≠
        (Session.signals {} {} twoParagraphs).events ∧
        substance (Session.signals {} {} controlledParagraphs).events.toList =
          [.run {} "x", .paragraphEnd, .paragraphEnd] ∧
          (Sink.plainText {}).addAll {} (Session.signals {} {} controlledParagraphs).events.toList =
            { blocks := #["x", ""] } := by
  have bares : Bares controlledParagraphs twoParagraphs :=
    .keep _ _ (.drop _ rfl (.keep _ _ (.keep _ _ (.keep _ _ (.keep _ _ (.keep _ _ (.drop _ rfl
      (.keep _ _ (.keep _ _ (.drop _ rfl (.drop _ rfl (.keep _ _ .nil))))))))))))
  obtain ⟨substances, _, _, texts⟩ := signals_of_bares bares {} {}
  refine ⟨bares, by decide +kernel, substances.trans ?_, (texts {} {}).trans ?_⟩
  · decide +kernel
  · decide +kernel

end Body

end WordStream

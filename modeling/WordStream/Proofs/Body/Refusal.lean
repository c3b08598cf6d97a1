import WordStream.Proofs.Body.EmbeddedObject
import WordStream.Proofs.Body.Passage

/-!
# Which signals are refused

A signal is refused if and only if it starts an embedded object outside skipped branches, and the object has
an attribute whose name has a brace that nothing closes. By then a pending paragraph was reported, and
nothing else was done.
-/

set_option autoImplicit false

namespace WordStream.Body

open Markup (Attributes IsUnclosed)

variable {context : Context} {policy : Policy} {state : State} {signal : Signal}
  {attributes : Attributes} {kind : Kind}

/-! ## Starts and ends of elements -/

theorem startKind_badName_iff :
    (startKind context attributes state kind).badName = true ↔
      kind = .content .oleObject ∧ ∃ entry ∈ attributes, IsUnclosed entry.1 := by
  cases kind with
  | branch branch | other => simp [startKind]
  | content tag =>
      cases tag with
      | oleObject =>
          rw [← scanObject?_eq_none_iff]
          cases scanned : scanObject? attributes <;> simp [startKind, startTag, scanned]
      | _ => simp [startKind, startTag]

/-- The start of an object that is refused leaves the state as it is. -/
theorem startKind_of_unclosed (unclosed : ∃ entry ∈ attributes, IsUnclosed entry.1) :
    startKind context attributes state (.content .oleObject) = { state, badName := true } := by
  simp only [startKind, startTag, scanObject?_eq_none_iff.2 unclosed]

theorem finishKind_badName (context : Context) (state : State) (kind : Kind) :
    (finishKind context state kind).badName = false := by
  cases kind with
  | branch branch | other => rfl
  | content tag => cases tag <;> rfl

/-! ## Signals -/

/-- A signal that is refused starts an embedded object with a name without parts, outside skipped
branches. -/
theorem starts_of_badName (refused : (step context policy state signal).badName = true) :
    ∃ space attributes, signal = .start space "OLEObject" attributes ∧
      state.gated context = false ∧ ∃ entry ∈ attributes, IsUnclosed entry.1 := by
  have passage := step_passage context policy state signal
  generalize step context policy state signal = outcome at passage refused
  cases passage with
  | @opened space name attributes shown ungated =>
      obtain ⟨object, unclosed⟩ := startKind_badName_iff.1 refused
      obtain rfl := Kind.name_of_of object
      exact ⟨space, attributes, rfl, ungated, unclosed⟩
  | closed ungated =>
      rw [finishKind_badName] at refused
      cases refused
  | counted | discounted | kept | dropped => cases refused

/-- All that comes of such a start is that a pending paragraph is reported. -/
theorem step_of_unclosed {space : Option String} (ungated : state.gated context = false)
    (unclosed : ∃ entry ∈ attributes, IsUnclosed entry.1) :
    step context policy state (.start space "OLEObject" attributes) =
      { state := { state with paragraphPending := false }
        events := if state.paragraphPending then [.paragraphStart state.paragraphFormat] else []
        badName := true } := by
  have object := Kind.of_oleObject space
  have shown : (Kind.of space "OLEObject").skipped context = false := by
    rw [object]
    rfl
  rw [step, start_of_shown attributes shown ungated, object, startKind_of_unclosed unclosed]
  simp [State.announcement]

theorem step_of_gated_object {space : Option String} (gated : state.gated context = true) :
    step context policy state (.start space "OLEObject" attributes) = { state } := by
  have object := Kind.of_oleObject space
  have hidden : (state.counting (Kind.of space "OLEObject")).gated context = true := by
    rw [object]
    exact gated
  rw [step, start_of_gated attributes hidden, object]
  rfl

/-- Whatever the state and whatever a signal holds, it is refused if and only if it starts an embedded object,
with the gate inactive after it, one of whose attributes has a name with a brace that nothing closes. If it is
refused, a pending paragraph was reported and is pending no more, and all else is as before. -/
theorem step_refuses (context : Context) (policy : Policy) (state : State) (signal : Signal) :
    let outcome := step context policy state signal
    (outcome.badName = true ↔
        ∃ space attributes, signal = .start space "OLEObject" attributes ∧
          outcome.state.gated context = false ∧ ∃ entry ∈ attributes, IsUnclosed entry.1) ∧
      (outcome.badName = true →
        outcome =
          { state := { state with paragraphPending := false }
            events := if state.paragraphPending then [.paragraphStart state.paragraphFormat] else []
            badName := true }) := by
  intro outcome
  have settled : outcome.badName = true →
      ∃ space attributes, signal = .start space "OLEObject" attributes ∧
        state.gated context = false ∧ ∃ entry ∈ attributes, IsUnclosed entry.1 := starts_of_badName
  refine ⟨⟨fun refused => ?_, ?_⟩, fun refused => ?_⟩
  · obtain ⟨space, attributes, rfl, ungated, unclosed⟩ := settled refused
    refine ⟨space, attributes, rfl, ?_, unclosed⟩
    rw [show outcome = _ from step_of_unclosed ungated unclosed]
    exact ungated
  · rintro ⟨space, attributes, rfl, passing, unclosed⟩
    cases gated : state.gated context with
    | true =>
        rw [show outcome = _ from step_of_gated_object gated, gated] at passing
        cases passing
    | false => rw [show outcome = _ from step_of_unclosed gated unclosed]
  · obtain ⟨space, attributes, rfl, ungated, unclosed⟩ := settled refused
    exact step_of_unclosed ungated unclosed

/-- A state in the midst of a run, inside a branch, with a paragraph and a picture still to be reported. -/
def stateAmidRun : State where
  inRun := true
  paragraphPending := true
  fallbackDepth := 1
  pictureId := some "rId4"
  buffer := "so far"

theorem step_refuses_unclosedObject :
    let context : Context := { skipFallback := false }
    let signal : Signal :=
      .start (some officeSpace) "OLEObject" [("Type", "Embed"), ("\x7burn:x", "1")]
    (step context {} stateAmidRun signal).badName = true ∧
      step context {} stateAmidRun signal =
        { state := { stateAmidRun with paragraphPending := false }
          events := [.paragraphStart {}]
          badName := true } := by
  intro context signal
  obtain ⟨refuses, leaves⟩ := step_refuses context {} stateAmidRun signal
  have unclosed : IsUnclosed "\x7burn:x" := by
    constructor <;> decide
  have refused : (step context {} stateAmidRun signal).badName = true :=
    refuses.2 ⟨some officeSpace, _, rfl, by decide +kernel, _, .tail _ (.head _), unclosed⟩
  exact ⟨refused, leaves refused⟩

end WordStream.Body

import WordStream.Proofs.Body.Frame

/-!
# What comes of a signal

A signal passes a translation in one of six ways. Which one is a matter of the gate and, for texts, of what is
kept; what then happens to an element is a matter of its kind.
-/

set_option autoImplicit false

namespace WordStream.Body

open Markup (Attributes)

/-- Counting changes nothing but the counters. -/
theorem State.exists_counting (state : State) (kind : Kind) :
    ∃ choices fallbacks, state.counting kind = state.withDepths choices fallbacks := by
  cases kind with
  | branch branch => cases branch <;> exact ⟨_, _, rfl⟩
  | content tag | other => exact ⟨_, _, state.withDepths_self⟩

theorem State.exists_discounting (state : State) (kind : Kind) :
    ∃ choices fallbacks, state.discounting kind = state.withDepths choices fallbacks := by
  cases kind with
  | branch branch => cases branch <;> exact ⟨_, _, rfl⟩
  | content tag | other => exact ⟨_, _, state.withDepths_self⟩

/-- The ways in which a signal passes, each with the outcome. -/
inductive Passage (context : Context) (policy : Policy) (state : State) : Signal → Outcome → Prop where
  /-- A start behind the gate, which it may have closed itself. -/
  | counted {space : Option String} {name : String} (attributes : Attributes)
      (behind : (state.counting (Kind.of space name)).gated context = true) :
      Passage context policy state (.start space name attributes)
        { state := state.counting (Kind.of space name) }
  | opened {space : Option String} {name : String} (attributes : Attributes)
      (shown : (Kind.of space name).skipped context = false)
      (ungated : state.gated context = false) :
      Passage context policy state (.start space name attributes)
        (let outcome := startKind context attributes { state with paragraphPending := false }
            (Kind.of space name)
         { outcome with events := state.announcement (Kind.of space name) ++ outcome.events })
  | discounted {space : Option String} {name : String} (behind : state.gated context = true) :
      Passage context policy state (.finish space name)
        { state := state.discounting (Kind.of space name) }
  | closed {space : Option String} {name : String} (ungated : state.gated context = false) :
      Passage context policy state (.finish space name)
        (finishKind context state (Kind.of space name))
  | kept {signal : Signal} {text : String} (tells : signal = .text text ∨ signal = .blank text)
      (ungated : state.gated context = false) :
      Passage context policy state signal { state := state.write text }
  | dropped {signal : Signal} {text : String} (tells : signal = .text text ∨ signal = .blank text) :
      Passage context policy state signal { state }

variable (context : Context) (policy : Policy) (state : State)

theorem start_passage (space : Option String) (name : String) (attributes : Attributes) :
    Passage context policy state (.start space name attributes)
      (start context state space name attributes) := by
  cases behind : (state.counting (Kind.of space name)).gated context with
  | true =>
      rw [start_of_gated attributes behind]
      exact .counted attributes behind
  | false =>
      rw [State.gated_counting, Bool.or_eq_false_iff] at behind
      rw [start_of_shown attributes behind.2 behind.1]
      exact .opened attributes behind.2 behind.1

theorem finish_passage (space : Option String) (name : String) :
    Passage context policy state (.finish space name) (finish context state space name) := by
  cases gated : state.gated context with
  | true =>
      rw [finish_of_gated gated]
      exact .discounted gated
  | false =>
      rw [finish_of_shown gated]
      exact .closed gated

theorem told_passage {signal : Signal} {text : String} (keeps : Bool)
    (tells : signal = .text text ∨ signal = .blank text) :
    Passage context policy state signal
      { state := if !state.gated context && keeps then state.write text else state } := by
  cases kept : !state.gated context && keeps with
  | true =>
      rw [Bool.and_eq_true, Bool.not_eq_true'] at kept
      exact .kept tells kept.1
  | false => exact .dropped tells

/-- Every signal passes in one of the six ways. -/
theorem step_passage (signal : Signal) :
    Passage context policy state signal (step context policy state signal) := by
  cases signal with
  | start space name attributes => exact start_passage context policy state space name attributes
  | finish space name => exact finish_passage context policy state space name
  | text text => exact told_passage context policy state _ (.inl rfl)
  | blank text => exact told_passage context policy state _ (.inr rfl)

end WordStream.Body

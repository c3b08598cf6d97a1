import WordStream.Body.Part

/-!
# Replaying what was recorded

A translation reads nothing from its sink but the policy. What it tells one sink is therefore what
another sink with the same policy holds after the recorded events are told to it in their order.
-/

set_option autoImplicit false

namespace WordStream

open Markup (Call)

namespace Sink

variable {Store : Type}

theorem addAll_append (sink : Sink Store) (store : Store) (former latter : List Event) :
    sink.addAll store (former ++ latter) = sink.addAll (sink.addAll store former) latter :=
  List.foldl_append

theorem addAll_recorder (policy : Policy) (recorded : Array Event) (events : List Event) :
    (recorder policy).addAll recorded events = recorded ++ events := by
  induction events generalizing recorded with
  | nil =>
      apply Array.ext'
      simp [addAll]
  | cons event rest ih =>
      have pushed : (recorder policy).addAll recorded (event :: rest) = recorded.push event ++ rest :=
        ih (recorded.push event)
      rw [pushed]
      apply Array.ext'
      simp

theorem addAll_plainText (policy : Policy) (events : Array Event) :
    (plainText policy).addAll {} events.toList = PlainText.ofEvents events :=
  Array.foldl_toList PlainText.add

end Sink

namespace Body

namespace Rendition

variable {Store : Type}

/-- The same rendition for another sink, to which the recorded events were told. -/
def replay (sink : Sink Store) (store : Store) (recorded : Rendition (Array Event)) :
    Rendition Store where
  state := recorded.state
  elements := recorded.elements
  store := sink.addAll store recorded.store.toList
  badName := recorded.badName

variable {context : Context} {policy : Policy} {sink : Sink Store}

theorem call_replay (settled : ∀ store, sink.policy store = policy) (store : Store)
    (recorded : Rendition (Array Event)) (call : Call) :
    (recorded.replay sink store).call context sink call =
      (recorded.call context (.recorder policy) call).replay sink store := by
  have asked : sink.policy (recorded.replay sink store).store = policy := settled _
  have reported (events : List Event) :
      sink.addAll (recorded.replay sink store).store events =
        sink.addAll store ((Sink.recorder policy).addAll recorded.store events).toList := by
    rw [Sink.addAll_recorder, Array.toList_appendList, Sink.addAll_append]
    rfl
  simp only [Rendition.call, asked, reported]
  rfl

theorem calls_replay (settled : ∀ store, sink.policy store = policy) (store : Store)
    (recorded : Rendition (Array Event)) (sequence : List Call) :
    (recorded.replay sink store).calls context sink sequence =
      (recorded.calls context (.recorder policy) sequence).replay sink store := by
  induction sequence generalizing recorded with
  | nil => rfl
  | cons call rest ih =>
      rw [calls_cons, calls_cons, call_replay settled]
      exact ih (recorded.call context (.recorder policy) call)

theorem calls_eq_replay (settled : ∀ store, sink.policy store = policy) (store : Store)
    (sequence : List Call) :
    Rendition.calls context sink { store } sequence =
      (Rendition.calls context (.recorder policy) { store := #[] } sequence).replay sink store :=
  calls_replay settled store { store := #[] } sequence

theorem ofChunks?_eq_replay (settled : ∀ store, sink.policy store = policy)
    (parser : Markup.Parser) (store : Store) (chunks : List ByteArray) :
    Rendition.ofChunks? parser context sink store chunks =
      (Rendition.ofChunks? parser context (.recorder policy) #[] chunks).map (replay sink store) := by
  rw [ofChunks?, ofChunks?, Option.map_map]
  congr 1
  funext sequence
  exact calls_eq_replay settled store sequence

end Rendition

/-! ## Sessions as renditions -/

namespace Session

/-- The rendition for a recorder that a session is. -/
def recorded (session : Session) : Rendition (Array Event) where
  state := session.state
  elements := session.elements
  store := session.events
  badName := session.badName

theorem calls_recorded (context : Context) (policy : Policy) (session : Session)
    (sequence : List Call) :
    session.recorded.calls context (.recorder policy) sequence =
      (session.calls context policy sequence).recorded := by
  induction sequence generalizing session with
  | nil => rfl
  | cons call rest ih =>
      have step : session.recorded.call context (.recorder policy) call =
          (session.call context policy call).recorded := by
        simp only [Rendition.call, Sink.addAll_recorder]
        rfl
      rw [Rendition.calls_cons, step, ih]
      rfl

end Session

end Body

end WordStream

import WordStream.Proofs.Body.View

/-!
# What is reported of an element

A run over a body passes every place once. What it reports between reaching a place and leaving it is what
is reported of the tree there, whatever was told before and whatever follows.
-/

set_option autoImplicit false

namespace WordStream.Body

open Markup (Attributes Call Place Tree)

variable {context : Context}

/-- The events that turns over a whole report of the tree at a place. -/
def reportedAt (context : Context) (place : Place) (tree : Tree) (turns : List Turn) : List Event :=
  let reached := Session.turns context {} (turns.take place.before.length)
  let left := reached.turns context ((turns.drop place.before.length).take tree.calls.length)
  left.events.toList.drop reached.events.size

theorem reportedAt_of_parts {place : Place} {tree : Tree} {former own latter : List Turn}
    {events : List Event} (begun : former.map Prod.snd = place.before)
    (told : own.map Prod.snd = tree.calls)
    (reported : ((Session.turns context {} former).turns context own).events =
      (Session.turns context {} former).events ++ events) :
    reportedAt context place tree (former ++ (own ++ latter)) = events := by
  have formerLength : place.before.length = former.length := by rw [← begun, List.length_map]
  have ownLength : tree.calls.length = own.length := by rw [← told, List.length_map]
  simp only [reportedAt, formerLength, ownLength, List.take_left, List.drop_left, reported,
    Array.toList_appendList, ← Array.length_toList]

/-- What was reported stays reported. -/
theorem Session.exists_events_turns (session : Session) (turns : List Turn) :
    ∃ events : List Event, (session.turns context turns).events = session.events ++ events := by
  induction turns generalizing session with
  | nil => exact ⟨[], by simp⟩
  | cons turn rest ih =>
      obtain ⟨policy, call⟩ := turn
      obtain ⟨events, later⟩ := ih (session.call context policy call)
      refine ⟨(receive context policy session.state call).events ++ events, ?_⟩
      rw [Session.turns_cons, later]
      apply Array.ext'
      simp [Session.call, Session.take]

/-- Turns over a whole come to a place, begin the element there, tell its children, and end it. -/
theorem turns_of_place {place : Place} {tag : String} {attributes : Attributes}
    {children : List Tree} {turns : List Turn}
    (told : turns.map Prod.snd = (place.fill (.element tag attributes children)).calls) :
    ∃ (former : List Turn) (first : Policy) (inner : List Turn) (last : Policy)
      (latter : List Turn),
      turns = former ++
          ((first, .start tag attributes) :: (inner ++ [(last, .finish tag)]) ++ latter) ∧
        former.map Prod.snd = place.before ∧
          inner.map Prod.snd = Tree.callsOfList children := by
  rw [Place.calls_fill] at told
  obtain ⟨former, rest, rfl, begun, restTold⟩ := List.map_eq_append_iff.1 told
  obtain ⟨own, latter, rfl, ownTold, _⟩ := List.map_eq_append_iff.1 restTold
  obtain ⟨first, last, inner, rfl, inside⟩ := turns_of_element ownTold
  exact ⟨former, first, inner, last, latter, rfl, begun, inside⟩

theorem told_before {place : Place} {tree : Tree} {turns : List Turn}
    (told : turns.map Prod.snd = (place.fill tree).calls) :
    (turns.take place.before.length).map Prod.snd = place.before := by
  rw [List.map_take, told, Place.calls_fill, List.take_left]

/-- Of an element outside skipped branches first all is reported that comes before its end, and then
what its end tells. A view reads then what it read at the place, taken through the element's start and
children. -/
theorem View.exists_reportedAt {Value : Type} (view : View context Value) {place : Place}
    {tag : String} {kind : Kind} {attributes : Attributes} {children : List Tree}
    {turns : List Turn} (found : Kind.ofTag? tag = some kind) (plain : kind.skipped context = false)
    (named : (place.fill (.element tag attributes children)).all Tree.isNamed = true)
    (shown : isShown context place = true) (allowed : ∀ turn ∈ turns, view.allows turn.1)
    (told : turns.map Prod.snd = (place.fill (.element tag attributes children)).calls) :
    let reached := Session.turns context {} (turns.take place.before.length)
    ∃ (filled : Session) (early : List Event), filled.events = reached.events ++ early ∧
      reportedAt context place (.element tag attributes children) turns =
          early ++ (finishKind context filled.state kind).events ∧
        view.of filled =
          view.throughList children (view.opens attributes kind (view.of reached)) := by
  intro reached
  have here := Place.all_of_fill place named
  rw [Tree.all, Bool.and_eq_true] at here
  have begun := told_before told
  have ungated : reached.state.gated context = false := gated_at_place place named shown begun
  obtain ⟨former, first, inner, last, latter, split, formerTold, inside⟩ := turns_of_place told
  have same : turns.take place.before.length = former := by
    rw [← formerTold, List.length_map, split, List.take_left]
  have opened := gated_call_start first attributes found plain ungated
  let filled := (reached.call context first (.start tag attributes)).turns context inner
  have passing : filled.state.gated context = false :=
    (turnsList_gated here.2 inside).trans opened
  obtain ⟨early, reported⟩ :=
    reached.exists_events_turns ((first, .start tag attributes) :: inner)
  have before : filled.events = reached.events ++ early := reported
  refine ⟨filled, early, before, ?_, ?_⟩
  · have closing : (filled.call context last (.finish tag)).events =
        filled.events ++ (finishKind context filled.state kind).events := by
      simp only [Session.call, Session.take, receive_finish found passing]
    have whole : (reached.turns context
        ((first, .start tag attributes) :: (inner ++ [(last, .finish tag)]))).events =
          reached.events ++ (early ++ (finishKind context filled.state kind).events) := by
      rw [Session.turns_cons, Session.turns_append, Session.turns_cons, Session.turns_nil,
        closing, before]
      apply Array.ext'
      simp
    have own : ((first, .start tag attributes) :: (inner ++ [(last, .finish tag)])).map Prod.snd =
        (Tree.element tag attributes children).calls := by simp [Tree.calls, inside]
    rw [split]
    -- What is reported at the place is counted from the turns before it, here from those in front.
    simp only [reached, same] at whole
    exact reportedAt_of_parts formerTold own whole
  · have innerAllowed : ∀ turn ∈ inner, view.allows turn.1 := by
      intro turn member
      apply allowed
      rw [split]
      simp [member]
    rw [view.of_turnsList opened here.2 innerAllowed inside, View.of_start found plain ungated]

end WordStream.Body

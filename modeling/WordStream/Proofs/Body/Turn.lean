import WordStream.Body.Session
import WordStream.Markup.Tree

/-!
# Sessions under changing policies

A policy may change between any two steps, so a run takes every step together with the policy in
force at that moment. A run over a tree falls into the runs over its parts.
-/

set_option autoImplicit false

namespace WordStream.Body

open Markup (Attributes Call Tree)

/-- A call of a document reader and the policy in force when it arrives. -/
abbrev Turn := Policy × Call

namespace Session

def signals (context : Context) (session : Session) (sequence : List (Policy × Signal)) : Session :=
  sequence.foldl (fun session (policy, signal) => session.signal context policy signal) session

@[simp]
theorem signals_nil (context : Context) (session : Session) :
    session.signals context [] = session := rfl

@[simp]
theorem signals_cons (context : Context) (session : Session) (policy : Policy) (signal : Signal)
    (rest : List (Policy × Signal)) :
    session.signals context ((policy, signal) :: rest) =
      (session.signal context policy signal).signals context rest := rfl

theorem signals_append (context : Context) (session : Session)
    (former latter : List (Policy × Signal)) :
    session.signals context (former ++ latter) =
      (session.signals context former).signals context latter :=
  List.foldl_append

def turns (context : Context) (session : Session) (sequence : List Turn) : Session :=
  sequence.foldl (fun session (policy, call) => session.call context policy call) session

@[simp]
theorem turns_nil (context : Context) (session : Session) :
    session.turns context [] = session := rfl

@[simp]
theorem turns_cons (context : Context) (session : Session) (policy : Policy) (call : Call)
    (rest : List Turn) :
    session.turns context ((policy, call) :: rest) =
      (session.call context policy call).turns context rest := rfl

theorem turns_append (context : Context) (session : Session) (former latter : List Turn) :
    session.turns context (former ++ latter) =
      (session.turns context former).turns context latter :=
  List.foldl_append

theorem calls_eq_turns (context : Context) (policy : Policy) (session : Session)
    (sequence : List Call) :
    session.calls context policy sequence =
      session.turns context (sequence.map fun call => (policy, call)) := by
  induction sequence generalizing session with
  | nil => rfl
  | cons call rest ih => simpa using ih (session.call context policy call)

/-- Carries a session over calls for a sink that settles its policy by the events it was told. -/
def tell (context : Context) (sink : Array Event → Policy) (session : Session)
    (sequence : List Call) : Session :=
  sequence.foldl (fun session call => session.call context (sink session.events) call) session

@[simp]
theorem tell_nil (context : Context) (sink : Array Event → Policy) (session : Session) :
    session.tell context sink [] = session := rfl

@[simp]
theorem tell_cons (context : Context) (sink : Array Event → Policy) (session : Session)
    (call : Call) (rest : List Call) :
    session.tell context sink (call :: rest) =
      (session.call context (sink session.events) call).tell context sink rest := rfl

theorem tell_append (context : Context) (sink : Array Event → Policy) (session : Session)
    (former latter : List Call) :
    session.tell context sink (former ++ latter) =
      (session.tell context sink former).tell context sink latter :=
  List.foldl_append

/-- Whatever the sink decides, it decides some policy at every call. -/
theorem exists_turns_eq_tell (context : Context) (sink : Array Event → Policy) (session : Session)
    (sequence : List Call) :
    ∃ turns : List Turn, turns.map Prod.snd = sequence ∧
      session.tell context sink sequence = session.turns context turns := by
  induction sequence generalizing session with
  | nil => exact ⟨[], rfl, rfl⟩
  | cons call rest ih =>
      obtain ⟨turns, told, same⟩ := ih (session.call context (sink session.events) call)
      exact ⟨(sink session.events, call) :: turns, by simp [told], by simp [same]⟩

end Session

/-! ## Turns that tell a tree -/

theorem told_of_constant (policy : Policy) (sequence : List Call) :
    (sequence.map fun call => ((policy, call) : Turn)).map Prod.snd = sequence := by
  induction sequence with
  | nil => rfl
  | cons call rest ih => rw [List.map_cons, List.map_cons, ih]

/-- The turns that tell an element are those of its ends around those that tell its children. -/
theorem turns_of_element {turns : List Turn} {tag : String} {attributes : Attributes}
    {children : List Tree}
    (told : turns.map Prod.snd = (Tree.element tag attributes children).calls) :
    ∃ (first last : Policy) (inner : List Turn),
      turns = (first, .start tag attributes) :: (inner ++ [(last, .finish tag)]) ∧
        inner.map Prod.snd = Tree.callsOfList children := by
  rw [Tree.calls] at told
  obtain ⟨⟨first, opening⟩, rest, rfl, rfl, restTold⟩ := List.map_eq_cons_iff.1 told
  obtain ⟨inner, final, rfl, inside, finalTold⟩ := List.map_eq_append_iff.1 restTold
  obtain ⟨⟨last, closing⟩, _, rfl, rfl, nothing⟩ := List.map_eq_cons_iff.1 finalTold
  obtain rfl := List.map_eq_nil_iff.1 nothing
  exact ⟨first, last, inner, rfl, inside⟩

theorem turns_of_cons {turns : List Turn} {tree : Tree} {trees : List Tree}
    (told : turns.map Prod.snd = Tree.callsOfList (tree :: trees)) :
    ∃ former latter : List Turn, turns = former ++ latter ∧
      former.map Prod.snd = tree.calls ∧ latter.map Prod.snd = Tree.callsOfList trees :=
  List.map_eq_append_iff.1 told

theorem turns_of_text {turns : List Turn} {content : String}
    (told : turns.map Prod.snd = (Tree.text content).calls) :
    ∃ policy : Policy, turns = [(policy, .data content)] := by
  obtain ⟨⟨policy, call⟩, rest, rfl, rfl, nothing⟩ := List.map_eq_cons_iff.1 told
  exact ⟨policy, by rw [List.map_eq_nil_iff.1 nothing]⟩

/-! ## What a run does whatever the policies -/

/-- Over the calls, and whatever policies are in force meanwhile, every session in the one state
comes to the other and reports the events. No name stops it. -/
def Carries (context : Context) (before : State) (sequence : List Call) (after : State)
    (events : List Event) : Prop :=
  ∀ (session : Session) (turns : List Turn), session.state = before →
    turns.map Prod.snd = sequence →
      (session.turns context turns).state = after ∧
        (session.turns context turns).events = session.events ++ events ∧
          (session.turns context turns).badName = session.badName

namespace Carries

variable {context : Context} {before middle after : State}

theorem nil (state : State) : Carries context state [] state [] := by
  rintro session turns rfl told
  obtain rfl := List.map_eq_nil_iff.1 told
  simp

theorem single {call : Call} {events : List Event}
    (received : ∀ policy, receive context policy before call = { state := after, events }) :
    Carries context before [call] after events := by
  rintro session turns rfl told
  obtain ⟨⟨policy, _⟩, rest, rfl, rfl, nothing⟩ := List.map_eq_cons_iff.1 told
  obtain rfl := List.map_eq_nil_iff.1 nothing
  simp [Session.call, Session.take, received policy]

theorem append {former latter : List Call} {formerEvents latterEvents : List Event}
    (first : Carries context before former middle formerEvents)
    (second : Carries context middle latter after latterEvents) :
    Carries context before (former ++ latter) after (formerEvents ++ latterEvents) := by
  intro session turns state told
  obtain ⟨formerTurns, latterTurns, rfl, formerTold, latterTold⟩ := List.map_eq_append_iff.1 told
  obtain ⟨firstState, firstEvents, firstName⟩ := first session formerTurns state formerTold
  obtain ⟨secondState, secondEvents, secondName⟩ :=
    second (session.turns context formerTurns) latterTurns firstState latterTold
  rw [Session.turns_append]
  exact ⟨secondState, by rw [secondEvents, firstEvents]; apply Array.ext'; simp,
    secondName.trans firstName⟩

theorem cons {call : Call} {rest : List Call} {callEvents restEvents : List Event}
    (received : ∀ policy,
      receive context policy before call = { state := middle, events := callEvents })
    (second : Carries context middle rest after restEvents) :
    Carries context before (call :: rest) after (callEvents ++ restEvents) :=
  (single received).append second

end Carries

end WordStream.Body

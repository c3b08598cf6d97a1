import WordStream.Body.Translation
import WordStream.Text.Blank

/-!
# Translation sessions

A session drives a translation with the calls of a document reader. It counts the elements and
collects the events. Sessions over two call sequences in turn are one session over their
concatenation.
-/

set_option autoImplicit false

namespace WordStream.Body

open Markup (Call splitName?)

/-- The signal of a document reader's call, or `none` if the call's tag has no parts. Blank text
counts as text of its own only inside the text of a run. -/
def Signal.ofCall? (state : State) : Call → Option Signal
  | .start tag attributes =>
      (splitName? tag).map fun (space, name) =>
        .start (if space.isEmpty then none else some space) name attributes
  | .finish tag =>
      (splitName? tag).map fun (space, name) =>
        .finish (if space.isEmpty then none else some space) name
  | .data content =>
      some (if Text.isBlankText content && !state.inText then .blank content else .text content)

def receive (context : Context) (policy : Policy) (state : State) (call : Call) : Outcome :=
  match Signal.ofCall? state call with
  | some signal => step context policy state signal
  | none => { state, badName := true }

/-- A translation and what came of it so far. -/
structure Session where
  state : State := {}
  elements : Nat := 0
  events : Array Event := #[]
  /-- Whether some name had no parts. -/
  badName : Bool := false
deriving DecidableEq, Repr

namespace Session

def take (session : Session) (outcome : Outcome) : Session where
  state := outcome.state
  elements := session.elements
  events := session.events ++ outcome.events
  badName := session.badName || outcome.badName

def signal (context : Context) (policy : Policy) (session : Session) (signal : Signal) : Session :=
  session.take (step context policy session.state signal)

/-- The number of elements that a call begins; one for every start, also for one whose tag has no
parts. -/
def begun : Call → Nat
  | .start .. => 1
  | .finish _ | .data _ => 0

/-- Takes a call. After a name that has no parts the session goes on, as a handler does that is called again. -/
def call (context : Context) (policy : Policy) (session : Session) (call : Call) : Session :=
  let taken := session.take (receive context policy session.state call)
  { taken with elements := taken.elements + begun call }

def calls (context : Context) (policy : Policy) (session : Session) (sequence : List Call) :
    Session :=
  sequence.foldl (call context policy) session

@[simp]
theorem calls_nil (context : Context) (policy : Policy) (session : Session) :
    session.calls context policy [] = session := rfl

@[simp]
theorem calls_cons (context : Context) (policy : Policy) (session : Session) (first : Call)
    (rest : List Call) :
    session.calls context policy (first :: rest) =
      (session.call context policy first).calls context policy rest := rfl

theorem calls_append (context : Context) (policy : Policy) (session : Session)
    (former latter : List Call) :
    session.calls context policy (former ++ latter) =
      (session.calls context policy former).calls context policy latter :=
  List.foldl_append

end Session

end WordStream.Body

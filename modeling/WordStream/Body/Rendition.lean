import WordStream.Body.Session
import WordStream.Content.Sink

/-!
# Renditions

A rendition is a translation that works for a sink. Before every call it asks the sink which text is
wanted, and what it has to report goes to the sink at once.
-/

set_option autoImplicit false

namespace WordStream.Body

open Markup (Call)

/-- A translation and the store of the sink that it works for. -/
structure Rendition (Store : Type) where
  state : State := {}
  elements : Nat := 0
  store : Store
  /-- Whether some name had no parts. -/
  badName : Bool := false
deriving DecidableEq, Repr

namespace Rendition

variable {Store : Type}

def call (context : Context) (sink : Sink Store) (rendition : Rendition Store) (call : Call) :
    Rendition Store :=
  let outcome := receive context (sink.policy rendition.store) rendition.state call
  { state := outcome.state
    elements := rendition.elements + Session.begun call
    store := sink.addAll rendition.store outcome.events
    badName := rendition.badName || outcome.badName }

def calls (context : Context) (sink : Sink Store) (rendition : Rendition Store)
    (sequence : List Call) : Rendition Store :=
  sequence.foldl (call context sink) rendition

@[simp]
theorem calls_nil (context : Context) (sink : Sink Store) (rendition : Rendition Store) :
    rendition.calls context sink [] = rendition := rfl

@[simp]
theorem calls_cons (context : Context) (sink : Sink Store) (rendition : Rendition Store)
    (first : Call) (rest : List Call) :
    rendition.calls context sink (first :: rest) =
      (rendition.call context sink first).calls context sink rest := rfl

end Rendition

end WordStream.Body

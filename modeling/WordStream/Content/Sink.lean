import WordStream.Content.PlainText

/-!
# Sinks

A sink takes in the events of a translation, one at a time, and says at every moment which text of
tracked edits it wants to be told.
-/

set_option autoImplicit false

namespace WordStream

/-- What takes in events, by what it holds of them. -/
structure Sink (Store : Type) where
  policy : Store → Policy
  add : Store → Event → Store

namespace Sink

def addAll {Store : Type} (sink : Sink Store) (store : Store) (events : List Event) : Store :=
  events.foldl sink.add store

def recorder (policy : Policy) : Sink (Array Event) where
  policy _ := policy
  add := Array.push

/-- Holds the text that the events make. -/
def plainText (policy : Policy) : Sink PlainText where
  policy _ := policy
  add := PlainText.add

end Sink

end WordStream

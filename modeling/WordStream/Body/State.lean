import WordStream.Body.Tag

/-!
# The state of a translation

A translation keeps no stack of open elements. Flags tell which kinds of elements are open, and
two counters how many branches of alternate content are.
-/

set_option autoImplicit false

namespace WordStream.Body

/-- What a translation knows between two signals. -/
structure State where
  inRun : Bool := false
  inRunFormat : Bool := false
  inText : Bool := false
  inParagraphFormat : Bool := false
  /-- Inside list formatting. -/
  inNumbering : Bool := false
  inPicture : Bool := false
  inDeletedText : Bool := false
  /-- A paragraph has begun that was not yet reported. -/
  paragraphPending : Bool := false
  /-- The kind of the tracked edit in force. -/
  edit : EditKind := .none
  /-- The preferred branches of alternate content that are open. -/
  choiceDepth : Nat := 0
  /-- The fallback branches of alternate content that are open. -/
  fallbackDepth : Nat := 0
  pictureId : Option String := none
  pictureDescription : Option String := none
  /-- The text of the run in the making. -/
  buffer : String := ""
  runFormat : RunFormat := {}
  paragraphFormat : ParagraphFormat := {}
deriving DecidableEq, Repr

/-- What stays fixed during a translation. -/
structure Context where
  /-- Whether fallback branches are skipped along with the preferred ones. -/
  skipFallback : Bool := true
  target? : String → Option String := fun _ => none

namespace State

/-- Whether the translation is inside a skipped branch of alternate content. -/
def gated (context : Context) (state : State) : Bool :=
  0 < state.choiceDepth || (context.skipFallback && 0 < state.fallbackDepth)

/-- Counts a branch of alternate content that opens. -/
def openBranch (state : State) : Branch → State
  | .choice => { state with choiceDepth := state.choiceDepth + 1 }
  | .fallback => { state with fallbackDepth := state.fallbackDepth + 1 }

/-- Counts a branch of alternate content that closes. A close without an open branch counts for
nothing. -/
def closeBranch (state : State) : Branch → State
  | .choice => { state with choiceDepth := state.choiceDepth - 1 }
  | .fallback => { state with fallbackDepth := state.fallbackDepth - 1 }

def write (state : State) (text : String) : State :=
  { state with buffer := state.buffer ++ text }

end State

end WordStream.Body

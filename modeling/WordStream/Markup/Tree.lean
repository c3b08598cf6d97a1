import WordStream.Markup.Name

/-!
# Element trees

A document as a tree of elements and texts. A reader's calls tell a tree in document order: every
element begins before its children and ends after them.
-/

set_option autoImplicit false

namespace WordStream.Markup

/-- An element with its children, or a text. -/
inductive Tree where
  | element (tag : String) (attributes : Attributes) (children : List Tree)
  | text (content : String)

mutual

def Tree.calls : Tree → List Call
  | .element tag attributes children =>
      .start tag attributes :: (Tree.callsOfList children ++ [.finish tag])
  | .text content => [.data content]

/-- The calls that tell trees one after the other. -/
def Tree.callsOfList : List Tree → List Call
  | [] => []
  | tree :: trees => tree.calls ++ Tree.callsOfList trees

end

namespace Tree

theorem callsOfList_append (former latter : List Tree) :
    callsOfList (former ++ latter) = callsOfList former ++ callsOfList latter := by
  induction former with
  | nil => rfl
  | cons tree trees ih => simp [callsOfList, ih]

mutual

def size : Tree → Nat
  | .element _ _ children => 1 + sizeOfList children
  | .text _ => 0

def sizeOfList : List Tree → Nat
  | [] => 0
  | tree :: trees => tree.size + sizeOfList trees

end

end Tree

end WordStream.Markup

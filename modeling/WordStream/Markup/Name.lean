/-!
# Expanded names

An expanded name joins a namespace and a local name in one text, with the namespace in braces.
A name without a namespace is written as its local name alone.
-/

set_option autoImplicit false

namespace WordStream.Markup

/-- Splits the characters before the first closing brace from those after it. -/
def splitAtBrace? : List Char → Option (List Char × List Char)
  | [] => none
  | '}' :: rest => some ([], rest)
  | character :: rest => (splitAtBrace? rest).map fun parts => (character :: parts.1, parts.2)

/-- Splits an expanded name into namespace and local name. The namespace of a name without one is
empty; a name with an opening brace only has no parts. -/
def splitName? (name : String) : Option (String × String) :=
  match name.toList with
  | '{' :: rest =>
      (splitAtBrace? rest).map fun parts => (String.ofList parts.1, String.ofList parts.2)
  | _ => some ("", name)

def joinName (space localName : String) : String :=
  if space.isEmpty then localName else "\x7b" ++ space ++ "\x7d" ++ localName

/-- The attributes of an element: expanded names and values, in document order. -/
abbrev Attributes := List (String × String)

namespace Attributes

/-- Sets the value of a name. A name keeps its first position. -/
def set (attributes : Attributes) (name value : String) : Attributes :=
  match attributes with
  | [] => [(name, value)]
  | entry :: rest =>
      if entry.1 = name then (name, value) :: rest else entry :: set rest name value

/-- The attributes that a list of names and values gives; of two values for a name the later one
holds. -/
def ofList (entries : List (String × String)) : Attributes :=
  entries.foldl (fun attributes entry => attributes.set entry.1 entry.2) []

def get? (attributes : Attributes) (name : String) : Option String :=
  attributes.lookup name

end Attributes

/-- What a document reader reports while it reads. -/
inductive Call where
  | start (tag : String) (attributes : Attributes)
  | finish (tag : String)
  | data (text : String)
deriving DecidableEq, Repr

end WordStream.Markup

import WordStream.Markup.Character

/-!
# References

A reference stands for a character, by its code or as one of five predefined names, or for an
entity that the document declares. It is written between an ampersand and a semicolon.
-/

set_option autoImplicit false

namespace WordStream.Markup

inductive Reference where
  /-- A character given by its code. -/
  | code (character : Char)
  | predefined (name : String) (character : Char)
  | entity (name : String)
deriving DecidableEq, Repr

namespace Reference

def characterOf? (code : Nat) : Option Char :=
  if code.isValidChar && isDocumentCharacter (Char.ofNat code) then some (Char.ofNat code)
  else none

def hexValue? (digit : Char) : Option Nat :=
  if '0' ≤ digit ∧ digit ≤ '9' then some (digit.toNat - '0'.toNat)
  else if 'a' ≤ digit ∧ digit ≤ 'f' then some (digit.toNat - 'a'.toNat + 10)
  else if 'A' ≤ digit ∧ digit ≤ 'F' then some (digit.toNat - 'A'.toNat + 10)
  else none

def ofDigits? (base : Nat) (digits : List Char) : Option Nat :=
  digits.foldlM
    (fun number digit => (hexValue? digit).bind fun value =>
      if value < base then some (base * number + value) else none) 0

def predefinedNames : List (String × Char) :=
  [("lt", '<'), ("gt", '>'), ("amp", '&'), ("quot", '"'), ("apos", '\'')]

def ofBody? : List Char → Option Reference
  | '#' :: 'x' :: digits => (ofDigits? 16 digits >>= characterOf?).map code
  | '#' :: digits => (ofDigits? 10 digits >>= characterOf?).map code
  | characters =>
      if isName characters then
        let name := String.ofList characters
        match predefinedNames.lookup name with
        | some character => some (predefined name character)
        | none => some (entity name)
      else none

end Reference

/-- A piece of a literal: a character that stands for itself, or a reference. -/
inductive Piece where
  | plain (character : Char)
  | reference (reference : Reference)
deriving DecidableEq, Repr

namespace Piece

/-- Splits a text into pieces. The pieces so far are held in reverse, and so is the body of a
reference whose semicolon is still to come. -/
def split? (done : List Piece) : (body : Option (List Char)) → List Char → Option (List Piece)
  | none, [] => some done.reverse
  | some _, [] => none
  | none, character :: rest =>
      if character = '&' then split? done (some []) rest
      else if isDocumentCharacter character then split? (plain character :: done) none rest
      else none
  | some body, character :: rest =>
      if character = ';' then
        match Reference.ofBody? body.reverse with
        | some found => split? (reference found :: done) none rest
        | none => none
      else split? done (some (character :: body)) rest

/-- The pieces of a literal, in which every reference is complete. -/
def ofText? (text : List Char) : Option (List Piece) := split? [] none text

end Piece

end WordStream.Markup

import WordStream.Markup.Character
import WordStream.Markup.Record

/-!
# Scanning

A scan takes something off the front of a text, or fails. Every scan of the grammar is built from
the few below.
-/

set_option autoImplicit false

namespace WordStream.Markup

/-- Takes something off the front of the characters that are left, or fails. -/
abbrev Scan := StateT (List Char) Reader

namespace Scan

def rest : Scan (List Char) := get

def next? : Scan (Option Char) := return (← rest).head?

def dropExact? : List Char → List Char → Option (List Char)
  | [], characters => some characters
  | _ :: _, [] => none
  | wanted :: others, character :: characters =>
      if character = wanted then dropExact? others characters else none

def exact (text : String) : Scan Unit := do
  match dropExact? text.toList (← rest) with
  | some left => set left
  | none => failure

def at? (text : String) : Scan Bool := return (dropExact? text.toList (← rest)).isSome

/-- Takes the given text if it comes next, and tells whether it did. -/
def taken (text : String) : Scan Bool := do
  match dropExact? text.toList (← rest) with
  | some left => set left; return true
  | none => return false

def takeWhile (accept : Char → Bool) : Scan (List Char) := do
  let (front, left) := (← rest).span accept
  set left
  return front

/-- Takes the separating characters that come next, and tells whether there were any. -/
def someSpaceTaken : Scan Bool := return !(← takeWhile isSpace).isEmpty

def space : Scan Unit := discard someSpaceTaken

/-- Takes separating characters, at least one. -/
def someSpace : Scan Unit := do
  guard (← someSpaceTaken)

def name : Scan String := do
  let characters ← takeWhile isNamePart
  guard (isName characters)
  return String.ofList characters

/-- Splits a character list at the first place where the given characters stand. The characters
before that place are held in reverse until then. -/
def splitAt? (mark : List Char) : (before characters : List Char) → Option (List Char × List Char)
  | before, characters =>
      match dropExact? mark characters with
      | some left => some (before.reverse, left)
      | none =>
          match characters with
          | [] => none
          | character :: others => splitAt? mark (character :: before) others

/-- Takes the characters up to a mark, which is taken too. -/
def upTo (mark : String) : Scan (List Char) := do
  match splitAt? mark.toList [] (← rest) with
  | some (before, left) => set left; return before
  | none => failure

/-- Takes a text in quotes of either kind and gives it without them. -/
def quoted : Scan (List Char) := do
  if ← taken "\"" then upTo "\"" else
    exact "'"
    upTo "'"

/-- Repeats a step from state to state until it tells the end. There may be a round for each of the
given characters, and a last one that tells the end. -/
def rounds {State : Type} (step : State → Scan (Option State)) : List Char → State → Scan State
  | [], state => do
      match ← step state with
      | none => return state
      | some _ => failure
  | _ :: others, state => do
      match ← step state with
      | none => return state
      | some later => rounds step others later

/-- Repeats a step from state to state until it tells the end. Every other round has to take a
character at least, so that the characters left are enough for all rounds. -/
def repeating {State : Type} (step : State → Scan (Option State)) (state : State) : Scan State := do
  rounds step (← rest) state

/-- Takes items for as long as another one follows. -/
def many (follows : Scan Bool) (item : Scan Unit) : Scan Unit :=
  repeating (fun _ => do if ← follows then some <$> item else return none) ()

end Scan

end WordStream.Markup

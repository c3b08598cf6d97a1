import WordStream.Body.State
import WordStream.Floating
import WordStream.Text.Blank

/-!
# Settings

The settings of a translation, and how they are read from values that may be given in several
forms. Every field that cannot be read is rejected, with its reason.
-/

set_option autoImplicit false

namespace WordStream

structure Settings where
  skipFallback : Bool := true
  chunkSize : Nat := 65536
  /-- Which text of tracked edits is kept. -/
  policy : Policy := {}
  chunkSize_pos : 0 < chunkSize := by decide
deriving DecidableEq, Repr

namespace Settings

def standard : Settings := {}

inductive Given where
  | boolean (value : Bool)
  | whole (value : Int)
  | floating (value : Floating)
  | text (value : String)
  /-- Anything else; the flag tells whether it holds something. -/
  | other (filled : Bool)
deriving DecidableEq, Repr

inductive Field where
  | chunkSize
  | deletedText
  | moveFromText
  | skipFallback
deriving DecidableEq, Repr

def Field.name : Field → String
  | chunkSize => "chunk_size"
  | deletedText => "include_deleted_text"
  | moveFromText => "include_move_from_text"
  | skipFallback => "skip_fallback"

inductive Reason where
  | notBoolean
  | unknownBoolean
  | notInteger
  | unknownInteger
  | longInteger
  | fraction
  | notFinite
  | notPositive
deriving DecidableEq, Repr

def Reason.name : Reason → String
  | notBoolean => "bool_type"
  | unknownBoolean => "bool_parsing"
  | notInteger => "int_type"
  | unknownInteger => "int_parsing"
  | longInteger => "int_parsing_size"
  | fraction => "int_from_float"
  | notFinite => "finite_number"
  | notPositive => "greater_than"

/-- A field with the reason why its value is rejected. -/
abbrev Rejection := Field × Reason

/-- The words that stand for true, in lower case. -/
def trueWords : List String := ["1", "on", "t", "true", "y", "yes"]

/-- The words that stand for false, in lower case. -/
def falseWords : List String := ["0", "off", "f", "false", "n", "no"]

/-- The least number that no word can tell. A word tells the numbers below it, and their negatives
and its own. -/
def wordBound : Int := 0x8000000000000000

def isWord (value : Int) : Bool :=
  -wordBound ≤ value && value < wordBound

/-- Reads a boolean from a number in a word: zero or one. -/
def readTruth (value : Int) : Except Reason Bool :=
  if value = 0 then .ok false else if value = 1 then .ok true else .error .unknownBoolean

/-- Reads a boolean: a boolean itself, zero or one, or a word in any case. -/
def readBoolean : Given → Except Reason Bool
  | .boolean value => .ok value
  | .whole value => if isWord value then readTruth value else .error .notBoolean
  | .floating value =>
      match value.whole? with
      | some whole => if -wordBound < whole && isWord whole then readTruth whole else .error .notBoolean
      | none => .error .notBoolean
  | .text value =>
      let word := value.map Char.toLower
      if trueWords.contains word then .ok true
      else if falseWords.contains word then .ok false
      else .error .unknownBoolean
  | .other _ => .error .notBoolean

/-- The most characters of a written number that no word can tell. -/
def maxNumberLength : Nat := 4300

/-- Drops zeros and underscores at the front of a written number, after the one that was dropped last.
That one stays if nothing or a point follows it. Nothing but digits or a sign may follow otherwise. -/
def dropZerosAfter? (last : Char) : List Char → Option (List Char)
  | [] => some [last]
  | character :: rest =>
      if character = '.' then some (last :: character :: rest)
      else if character = '0' || character = '_' then dropZerosAfter? character rest
      else if character.isDigit || character = '-' then some (character :: rest)
      else none

/-- Drops the zeros at the front of a written number. It has to begin with a digit or a sign. -/
def dropZeros? : List Char → Option (List Char)
  | [] => none
  | character :: rest =>
      if character = '0' then dropZerosAfter? character rest
      else if character.isDigit || character = '-' then some (character :: rest)
      else none

/-- Drops a point with the zeros after it, of which there has to be one. -/
def dropZeroFraction? (number : List Char) : Option (List Char) :=
  let front := number.takeWhile (· != '.')
  match number.drop front.length with
  | [] => some number
  | _ :: decimals =>
      if !decimals.isEmpty && decimals.all (· == '0') then some front else none

def holdsDoubleUnderscore : List Char → Bool
  | '_' :: '_' :: _ => true
  | _ :: rest => holdsDoubleUnderscore rest
  | [] => false

/-- Drops underscores, if each of them stands alone and within the number. -/
def dropUnderscores (number : List Char) : List Char :=
  if number.head? = some '_' || number.getLast? = some '_' || holdsDoubleUnderscore number then number
  else number.filter (· != '_')

/-- Reads a written number: digits after an optional minus. One that no word can tell has to do without
zeros at its front and must not be too long. -/
def readDigits (number : List Char) : Except Reason Int :=
  let (negative, written) :=
    match number with
    | '-' :: rest => (true, rest)
    | _ => (false, number)
  let digits := written.takeWhile Char.isDigit
  let magnitude : Int :=
    (digits.foldl (fun value digit => 10 * value + (digit.toNat - '0'.toNat)) 0 : Nat)
  let value := if negative then -magnitude else magnitude
  let complete := !digits.isEmpty && digits.length = written.length
  if isWord value then if complete then .ok value else .error .unknownInteger
  else if digits.head? = some '0' then .error .unknownInteger
  else if maxNumberLength < digits.length + (if negative then 1 else 0) then .error .longInteger
  else if complete then .ok value
  else .error .unknownInteger

/-- Reads a written number with white space around it, after an optional sign. Underscores may stand
between its digits, and zeros after a point. -/
def readNumber (text : String) : Except Reason Int :=
  let trimmed := Text.trimWhere Text.isWhiteSpace text.toList
  let number? :=
    match trimmed with
    | '+' :: '-' :: _ => none
    | '+' :: rest => dropZeros? rest
    | _ => dropZeros? trimmed
  match number? >>= dropZeroFraction? with
  | some number => readDigits (dropUnderscores number)
  | none => .error .unknownInteger

/-- Reads an integer, for which a boolean may stand. A number in floating point has to be whole and
told by a word. -/
def readInteger : Given → Except Reason Int
  | .boolean value => .ok (if value then 1 else 0)
  | .whole value => .ok value
  | .text value => readNumber value
  | .floating .unbounded => .error .notFinite
  | .floating value =>
      match value.whole? with
      | some whole => if -wordBound < whole && isWord whole then .ok whole else .error .longInteger
      | none => .error .fraction
  | .other _ => .error .notInteger

def readChunkSize (given : Given) : Except Reason { size : Nat // 0 < size } :=
  match readInteger given with
  | .error reason => .error reason
  | .ok size =>
      if positive : 0 < size.toNat then .ok ⟨size.toNat, positive⟩ else .error .notPositive

/-- Reads a field, or keeps its default if nothing is given. -/
def readField {α : Type} (read : Given → Except Reason α) (default : α)
    (given : List (String × Given)) (field : Field) : Except Rejection α :=
  match given.lookup field.name with
  | none => .ok default
  | some value => (read value).mapError fun reason => (field, reason)

def rejection? {α : Type} : Except Rejection α → List Rejection
  | .ok _ => []
  | .error rejection => [rejection]

/-- Reads settings from named values. Names that are no fields are passed over. -/
def read (given : List (String × Given)) : Except (List Rejection) Settings :=
  let chunkSize := readField readChunkSize ⟨standard.chunkSize, standard.chunkSize_pos⟩ given .chunkSize
  let deletedText := readField readBoolean standard.policy.deletedText given .deletedText
  let moveFromText := readField readBoolean standard.policy.moveFromText given .moveFromText
  let skipFallback := readField readBoolean standard.skipFallback given .skipFallback
  match chunkSize, deletedText, moveFromText, skipFallback with
  | .ok chunkSize, .ok deletedText, .ok moveFromText, .ok skipFallback =>
      .ok
        { skipFallback, chunkSize := chunkSize.1, policy := { deletedText, moveFromText },
          chunkSize_pos := chunkSize.2 }
  | _, _, _, _ =>
      .error
        (rejection? chunkSize ++ rejection? deletedText ++ rejection? moveFromText ++
          rejection? skipFallback)

/-- Whether a value counts as true where its truth is all that matters: numbers other than zero do,
and whatever is not empty. -/
def Given.isTrue : Given → Bool
  | boolean value => value
  | whole value => value != 0
  | floating value => !value.isZero
  | text value => !value.isEmpty
  | other filled => filled

def context (settings : Settings) (target? : String → Option String) : Body.Context :=
  { skipFallback := settings.skipFallback, target? }

end Settings

end WordStream

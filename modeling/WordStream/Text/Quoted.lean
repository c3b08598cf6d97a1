import WordStream.Text.Printable

/-!
# Quoted text

Text and bytes as messages quote them. The quotes are single, or double if the text holds single
quotes only. A backslash stands before the quote, a backslash and the letter of a line end or
tab; other characters that are not printable are given by their code.
-/

set_option autoImplicit false

namespace WordStream.Text

/-- The last hexadecimal digits of a number in lower case, as many as asked for. -/
def hexDigits : (count number : Nat) → List Char
  | 0, _ => []
  | count + 1, number => hexDigits count (number / 16) ++ [Nat.digitChar (number % 16)]

/-- A code after a backslash: two digits after `x`, four after `u`, or eight after `U`. -/
def escapeCode (code : Nat) : List Char :=
  if code < 0x100 then '\\' :: 'x' :: hexDigits 2 code
  else if code < 0x10000 then '\\' :: 'u' :: hexDigits 4 code
  else '\\' :: 'U' :: hexDigits 8 code

def quoteCharacter (quote : Char) (printable : Char → Bool) (character : Char) : List Char :=
  if character = quote || character = '\\' then ['\\', character]
  else if character = '\n' then ['\\', 'n']
  else if character = '\r' then ['\\', 'r']
  else if character = '\t' then ['\\', 't']
  else if printable character then [character]
  else escapeCode character.toNat

def chooseQuote (characters : List Char) : Char :=
  if characters.contains '\'' && !characters.contains '"' then '"' else '\''

/-- A character list in quotes, where a class tells the printable characters. -/
def quoteWith (printable : Char → Bool) (characters : List Char) : String :=
  let quote := chooseQuote characters
  String.ofList (quote :: characters.flatMap (quoteCharacter quote printable) ++ [quote])

def quote (text : String) : String :=
  quoteWith isPrintable text.toList

/-- Bytes in quotes, after the letter `b`. Bytes are read as ASCII characters, and no other byte is
printable. -/
def quoteBytes (bytes : List UInt8) : String :=
  "b" ++ quoteWith (fun character => 0x20 ≤ character.toNat && character.toNat < 0x7F)
    (bytes.map fun byte => Char.ofNat byte.toNat)

end WordStream.Text

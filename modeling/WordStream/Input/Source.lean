import WordStream.Input.Base64
import WordStream.Input.Fault
import WordStream.Input.Files

/-!
# Sources of documents

A document is handed in as a path or as base64 text. Both have limits on their size, and the bytes
have to begin as those of an archive do.
-/

set_option autoImplicit false

namespace WordStream.Input

def maxFileSize : Nat := 50 * 1024 * 1024

/-- The most characters of a base64 text. -/
def maxTextLength : Nat := 67 * 1024 * 1024

/-- The extensions of documents, in lower case. -/
def extensions : List String := [".docx", ".docm", ".dotx", ".dotm"]

/-- Accepts bytes that begin as those of an archive do. -/
def checkBytes (bytes : ByteArray) : Except Fault ByteArray :=
  if bytes.size = 0 then .error .empty
  else if (bytes.extract 0 2).data.toList = [0x50, 0x4B] then .ok bytes
  else .error .notDocument

/-- What is wrong where a path cannot be looked up. -/
def Obstacle.fault (path : Path) : Obstacle → Fault
  | absent => .notFound
  | denied => .system .denied path.text
  | longName => .system .longName path.text
  | loop => .linkLoop path.text

/-- What is wrong where the file at a path cannot be read. -/
def Trouble.fault (path : Path) : Trouble → Fault
  | opening error => .system error path.text
  | reading error => .system error none

/-- The bytes of a file that is handed in under a path. -/
def readFile (path : Path) (file : File) : Except Fault ByteArray := do
  let extension := Path.extension (path.getLast?.getD "")
  if !extensions.contains (extension.map Char.toLower) then throw .badExtension
  if maxFileSize < file.size then throw .longFile
  match file.trouble with
  | some trouble => throw (trouble.fault path)
  | none => checkBytes file.bytes

/-- The bytes of what a resolved path leads to. A loop of links is met before all else. -/
def readPath (files : Files) (path : Path) : Except Fault ByteArray :=
  match files.find path with
  | .error .loop => .error (.linkLoop path.text)
  | .error obstacle => .error (if path.isSystem then .systemPath else obstacle.fault path)
  | .ok place =>
      if path.isSystem then .error .systemPath
      else
        match files.file? place with
        | none => .error .notFound
        | some file => readFile path file

def fromPath (files : Files) (text : String) : Except Fault ByteArray :=
  if text.toList.any fun character => character.toNat = 0 then .error .badPath
  else
    match files.resolve? text with
    | none => .error (.system .absent none)
    | some path => readPath files path

def fromText (text : String) : Except Fault ByteArray :=
  if maxTextLength < text.length then .error .longText
  else
    match Base64.read? text with
    | none => .error .badText
    | some bytes => checkBytes bytes

/-- What is handed in: a path, a base64 text, or both. Empty texts stand for nothing. -/
structure Source where
  path : String := ""
  text : String := ""
deriving DecidableEq, Repr

/-- The bytes of what is handed in. A path goes before a base64 text. -/
def Source.bytes (source : Source) (files : Files) : Except Fault ByteArray :=
  if !source.path.isEmpty then fromPath files source.path
  else if !source.text.isEmpty then fromText source.text
  else .error .missing

end WordStream.Input

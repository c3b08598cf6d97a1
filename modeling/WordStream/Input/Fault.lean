import WordStream.Input.Files
import WordStream.Text.Quoted

/-!
# Faults of input

What can be wrong with a file that is handed in, and how messages word it.
-/

set_option autoImplicit false

namespace WordStream.Input

/-- What is wrong with a file that was handed in. -/
inductive Fault where
  /-- No file was handed in. -/
  | missing
  /-- The path holds a zero character. -/
  | badPath
  | systemPath
  /-- Links on the path lead round to one another. -/
  | linkLoop (path : String)
  /-- The system refuses something. The path is told if it is about one. -/
  | system (error : SystemError) (path : Option String)
  | notFound
  /-- The name of the file does not end as those of documents do. -/
  | badExtension
  | longFile
  | longText
  | badText
  | empty
  /-- The bytes do not begin as those of a document do. -/
  | notDocument
deriving DecidableEq, Repr

def Fault.message : Fault → String
  | missing => "Provide either file_path or file_bytes_b64. Neither was supplied."
  | badPath => "Invalid file path"
  | systemPath => "Access to system paths is not allowed"
  | linkLoop path => "Symlink loop from " ++ Text.quote path
  | system error path =>
      "[Errno " ++ toString error.number ++ "] " ++ error.wording ++
        match path with
        | some path => ": " ++ Text.quote path
        | none => ""
  | notFound => "File not found or not accessible"
  | badExtension => "Unsupported file extension. Supported: .docx, .docm, .dotx, .dotm"
  | longFile => "File exceeds maximum size (50 MB)"
  | longText => "Base64 input exceeds maximum size (67 MB encoded)"
  | badText => "Invalid base64 encoding in file_bytes_b64"
  | empty => "file_bytes is empty"
  | notDocument => "file_bytes does not appear to be a valid .docx file"

end WordStream.Input

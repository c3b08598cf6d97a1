import WordStream.Archive.Fault
import WordStream.Input.Fault
import WordStream.Settings
import WordStream.Text.Quoted

/-!
# Failures

The causes for which something asked of a file cannot be done, and how messages word them.
-/

set_option autoImplicit false

namespace WordStream

/-- Why something cannot be done. -/
inductive Failure where
  | input (fault : Input.Fault)
  | archive (fault : Archive.Fault)
  /-- A part is not in the archive; the body parts that are, are told if they were looked up. -/
  | missingPart (part : String) (present : List String)
  | malformedPart (part : String)
  | longRequest
  | settings (rejections : List Settings.Rejection)
deriving DecidableEq, Repr

/-- The wording of a failure. Rejected settings have none. -/
def Failure.message : Failure → String
  | input fault => fault.message
  | archive fault => fault.message
  | missingPart part present =>
      part ++ ": part not found in archive" ++
        if present.isEmpty then "" else ". Body parts present: " ++ ", ".intercalate present
  | malformedPart part => part ++ ": malformed XML"
  | longRequest => Archive.Fault.longRequest.message
  | settings _ => ""

/-- Why a name cannot be taken. -/
inductive NameFault where
  /-- An opening brace is not closed. -/
  | unclosedBrace
  /-- There is no kind of events of that name. -/
  | unknownKind (name : String)
deriving DecidableEq, Repr

def NameFault.message : NameFault → String
  | unclosedBrace => "not enough values to unpack (expected 2, got 1)"
  | unknownKind name => Text.quote name ++ " is not a valid EventKind"

end WordStream

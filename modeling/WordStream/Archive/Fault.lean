import WordStream.Archive.Unpacker
import WordStream.Text.Utf8

/-!
# Faults of archives

What can be wrong with an archive or one of its members, and how messages word it.
-/

set_option autoImplicit false

namespace WordStream.Archive

/-- What is wrong with an archive or a member. -/
inductive Fault where
  /-- The bytes hold no directory of members that can be read. -/
  | unreadable
  /-- A member needs a version of the format, in tenths, that is not known. -/
  | newerVersion (tenths : Nat)
  /-- The name of a member is marked as UTF-8 and is not. -/
  | undecodableName (fault : Text.Utf8Fault)
  | negativePlace (place : Int)
  | farPlace
  | truncatedHeader
  | badHeaderMark
  | patchedData
  | strongEncryption
  /-- The name that stands before a member is not the one in the directory. -/
  | differentNames (listed : String) (found : List UInt8)
  | overlap (listed : String)
  | encrypted (name : String)
  | unknownMethod
  | longRequest
  | wideRequest
  | truncatedData
  | damagedData (damage : Damage)
  | refusedData (refusal : Refusal)
  | badChecksum (name : String)
deriving DecidableEq, Repr

def Fault.message : Fault → String
  | unreadable => "file_bytes is not a readable .docx archive"
  | newerVersion tenths => "zip file version " ++ toString (tenths / 10) ++ "." ++
      toString (tenths % 10)
  | undecodableName fault => fault.message
  | negativePlace place => "negative seek value " ++ toString place
  | farPlace | wideRequest => "Python int too large to convert to C ssize_t"
  | truncatedHeader => "Truncated file header"
  | badHeaderMark => "Bad magic number for file header"
  | patchedData => "compressed patched data (flag bit 5)"
  | strongEncryption => "strong encryption (flag bit 6)"
  | differentNames listed found =>
      "File name in directory " ++ Text.quote listed ++ " and header " ++ Text.quoteBytes found ++
        " differ."
  | overlap listed => "Overlapped entries: " ++ Text.quote listed ++ " (possible zip bomb)"
  | encrypted name =>
      "File " ++ Text.quote name ++ " is encrypted, password required for extraction"
  | unknownMethod => "That compression method is not supported"
  | longRequest => "cannot fit 'int' into an index-sized integer"
  | truncatedData => ""
  | damagedData damage => "Error -3 while decompressing data: " ++ damage.message
  | refusedData refusal => refusal.message
  | badChecksum name => "Bad CRC-32 for file " ++ Text.quote name

end WordStream.Archive

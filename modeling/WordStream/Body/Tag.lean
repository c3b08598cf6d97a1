import WordStream.Content.Event

/-!
# Body vocabulary

The namespaces of a document body and the elements that carry content, which are known by their
local names alone.
-/

set_option autoImplicit false

namespace WordStream.Body

def wordSpace : String := "http://schemas.openxmlformats.org/wordprocessingml/2006/main"

def relationshipSpace : String :=
  "http://schemas.openxmlformats.org/officeDocument/2006/relationships"

def compatibilitySpace : String := "http://schemas.openxmlformats.org/markup-compatibility/2006"

def officeSpace : String := "urn:schemas-microsoft-com:office:office"

/-- The elements that carry content or formatting. -/
inductive Tag where
  | runFormat
  | run
  | text
  | tab
  | paragraph
  | bold
  | cell
  | paragraphStyle
  | italic
  | row
  | numbering
  | level
  | numberingId
  | lineBreak
  | carriageReturn
  | bookmarkStart
  | bookmarkEnd
  | hyperlink
  | table
  | blip
  | drawingProperties
  | picture
  | legacyPicture
  | imageData
  | footnote
  | endnote
  | edit (kind : EditKind)
  | deletedText
  | oleObject
  | paragraphFormat
deriving DecidableEq, Repr

def Tag.ofName? : String → Option Tag
  | "rPr" => some .runFormat
  | "r" => some .run
  | "t" => some .text
  | "tab" => some .tab
  | "p" => some .paragraph
  | "b" => some .bold
  | "tc" => some .cell
  | "pStyle" => some .paragraphStyle
  | "i" => some .italic
  | "tr" => some .row
  | "numPr" => some .numbering
  | "ilvl" => some .level
  | "numId" => some .numberingId
  | "br" => some .lineBreak
  | "cr" => some .carriageReturn
  | "bookmarkStart" => some .bookmarkStart
  | "bookmarkEnd" => some .bookmarkEnd
  | "hyperlink" => some .hyperlink
  | "tbl" => some .table
  | "blip" => some .blip
  | "cNvPr" => some .drawingProperties
  | "pic" => some .picture
  | "pict" => some .legacyPicture
  | "imagedata" => some .imageData
  | "footnoteReference" => some .footnote
  | "endnoteReference" => some .endnote
  | "ins" => some (.edit .insert)
  | "del" => some (.edit .delete)
  | "moveTo" => some (.edit .moveTo)
  | "moveFrom" => some (.edit .moveFrom)
  | "delText" => some .deletedText
  | "OLEObject" => some .oleObject
  | "pPr" => some .paragraphFormat
  | _ => none

/-- The two branches of alternate content. -/
inductive Branch where
  | choice
  | fallback
deriving DecidableEq, Repr

def Branch.of? (space : Option String) (name : String) : Option Branch :=
  if space = some compatibilitySpace then
    match name with
    | "Choice" => some .choice
    | "Fallback" => some .fallback
    | _ => none
  else none

end WordStream.Body

import WordStream.Date.Stamp

/-!
# Content events

The events that tell the content of a document body in reading order, and the kinds they come
in.
-/

set_option autoImplicit false

namespace WordStream

inductive EditKind where
  | none
  | insert
  | delete
  | moveTo
  | moveFrom
deriving DecidableEq, Repr

namespace EditKind

def name : EditKind → String
  | none => "none"
  | insert => "insert"
  | delete => "delete"
  | moveTo => "move_to"
  | moveFrom => "move_from"

end EditKind

/-- The formatting of a paragraph. Level and numbering are `-1` unless a list gives them. -/
structure ParagraphFormat where
  style : Option String := none
  level : Int := -1
  numbering : Int := -1
deriving DecidableEq, Repr

structure RunFormat where
  bold : Bool := false
  italic : Bool := false
deriving DecidableEq, Repr

inductive Event where
  | run (format : RunFormat) (text : String)
  | hyperlinkStart (link : Option String)
  | hyperlinkEnd
  | paragraphStart (format : ParagraphFormat)
  | paragraphEnd
  | tableStart
  | tableEnd
  | rowStart
  | rowEnd
  | cellStart
  | cellEnd
  | editStart (editor : Option String) (date : Option Date.Stamp) (kind : EditKind)
  | editEnd
  | footnote (id : Option String)
  | endnote (id : Option String)
  | embeddedObject (relationship : Option String)
  | picture (file description : Option String)
  | bookmarkStart (id name : Option String)
  | bookmarkEnd (id : Option String)
deriving DecidableEq, Repr

inductive EventKind where
  | run
  | hyperlinkStart
  | hyperlinkEnd
  | paragraphStart
  | paragraphEnd
  | tableStart
  | tableEnd
  | rowStart
  | rowEnd
  | cellStart
  | cellEnd
  | editStart
  | editEnd
  | footnote
  | endnote
  | embeddedObject
  | picture
  | bookmarkStart
  | bookmarkEnd
deriving DecidableEq, Repr

namespace EventKind

def all : List EventKind :=
  [run, hyperlinkStart, hyperlinkEnd, paragraphStart, paragraphEnd, tableStart, tableEnd, rowStart,
   rowEnd, cellStart, cellEnd, editStart, editEnd, footnote, endnote, embeddedObject, picture,
   bookmarkStart, bookmarkEnd]

def name : EventKind → String
  | run => "run"
  | hyperlinkStart => "hyperlink_start"
  | hyperlinkEnd => "hyperlink_end"
  | paragraphStart => "start_paragraph"
  | paragraphEnd => "end_paragraph"
  | tableStart => "start_table"
  | tableEnd => "end_table"
  | rowStart => "start_table_row"
  | rowEnd => "end_table_row"
  | cellStart => "start_table_cell"
  | cellEnd => "end_table_cell"
  | editStart => "start_edited_section"
  | editEnd => "end_edited_section"
  | footnote => "footnote_reference"
  | endnote => "endnote_reference"
  | embeddedObject => "embedded_ole_ref"
  | picture => "embedded_pic_ref"
  | bookmarkStart => "start_bookmark"
  | bookmarkEnd => "end_bookmark"

def ofName? (name : String) : Option EventKind :=
  all.find? fun kind => kind.name == name

end EventKind

def Event.kind : Event → EventKind
  | .run .. => .run
  | .hyperlinkStart .. => .hyperlinkStart
  | .hyperlinkEnd => .hyperlinkEnd
  | .paragraphStart .. => .paragraphStart
  | .paragraphEnd => .paragraphEnd
  | .tableStart => .tableStart
  | .tableEnd => .tableEnd
  | .rowStart => .rowStart
  | .rowEnd => .rowEnd
  | .cellStart => .cellStart
  | .cellEnd => .cellEnd
  | .editStart .. => .editStart
  | .editEnd => .editEnd
  | .footnote .. => .footnote
  | .endnote .. => .endnote
  | .embeddedObject .. => .embeddedObject
  | .picture .. => .picture
  | .bookmarkStart .. => .bookmarkStart
  | .bookmarkEnd .. => .bookmarkEnd

/-- Which text of tracked edits is kept. -/
structure Policy where
  deletedText : Bool := false
  moveFromText : Bool := false
deriving DecidableEq, Repr

end WordStream

import WordStream.Content.Event
import WordStream.Text.Blank

/-!
# Plain text

Content events rendered as plain text: a line for each paragraph, tabs between the cells of a
table row, and a table inside a cell flattened into the cell.
-/

set_option autoImplicit false

namespace WordStream

/-- An open table: its rows of finished cells, and the blocks of its open cell. -/
structure PlainText.Table where
  rows : Array (Array String) := #[]
  cell : Option (Array String) := none
deriving DecidableEq, Repr

/-- Plain text in the making. The innermost open table comes first. -/
structure PlainText where
  blocks : Array String := #[]
  paragraph : String := ""
  tables : List PlainText.Table := []
  link : Option String := none
deriving DecidableEq, Repr

namespace PlainText

def join (separator : String) (texts : Array String) : String :=
  separator.intercalate texts.toList

namespace Table

/-- The rows of a table joined by a separator, with tabs between cells. -/
def render (separator : String) (table : Table) : String :=
  join separator (table.rows.map (join "\t"))

def startRow (table : Table) : Table :=
  { table with rows := table.rows.push #[] }

/-- Opens a cell; the blocks of a cell that was open are lost. -/
def startCell (table : Table) : Table :=
  { table with cell := some #[] }

/-- The text of the open cell: its blocks with spaces between them, without blanks at the ends. -/
def cellText (table : Table) : String :=
  Text.trim (join " " (table.cell.getD #[]))

/-- Closes the open cell into the last row, which is opened if there is none. -/
def endCell (table : Table) : Table :=
  let rows := if table.rows.isEmpty then #[#[]] else table.rows
  { rows := rows.modify (rows.size - 1) (·.push table.cellText), cell := none }

end Table

def text (plain : PlainText) : String :=
  join "\n" plain.blocks

/-- Adds a block to the open cell of the innermost table, or to the text if there is none. -/
def addBlock (plain : PlainText) (block : String) : PlainText :=
  match plain.tables with
  | { rows, cell := some blocks } :: outer =>
      { plain with tables := { rows, cell := some (blocks.push block) } :: outer }
  | _ => { plain with blocks := plain.blocks.push block }

def addText (plain : PlainText) (text : String) : PlainText :=
  { plain with paragraph := plain.paragraph ++ text }

def modifyTable (plain : PlainText) (change : Table → Table) : PlainText :=
  match plain.tables with
  | [] => plain
  | table :: outer => { plain with tables := change table :: outer }

/-- Closes the innermost table. Inside another table it becomes a block of one line. -/
def endTable (plain : PlainText) : PlainText :=
  match plain.tables with
  | [] => plain
  | [table] => { plain with tables := [], blocks := plain.blocks.push (table.render "\n") }
  | table :: outer => addBlock { plain with tables := outer } (table.render " | ")

/-- Closes a hyperlink; a target that is not empty is written after its text. -/
def endLink (plain : PlainText) : PlainText :=
  match plain.link with
  | none | some "" => { plain with link := none }
  | some target => { plain.addText (" <" ++ target ++ ">") with link := none }

def mark (label : String) (id : Option String) : String :=
  "[" ++ label ++ " " ++ id.getD "None" ++ "]"

/-- The mark of a picture: its file name, else its description, whichever is not empty. -/
def pictureMark (file description : Option String) : String :=
  match file.filter (!·.isEmpty) <|> description.filter (!·.isEmpty) with
  | some label => "[image: " ++ label ++ "]"
  | none => "[image]"

def add (plain : PlainText) : Event → PlainText
  | .run _ text => plain.addText text
  | .hyperlinkStart link => { plain with link }
  | .hyperlinkEnd => plain.endLink
  | .paragraphEnd => { plain.addBlock plain.paragraph with paragraph := "" }
  | .tableStart => { plain with tables := {} :: plain.tables }
  | .tableEnd => plain.endTable
  | .rowStart => plain.modifyTable Table.startRow
  | .cellStart => plain.modifyTable Table.startCell
  | .cellEnd => plain.modifyTable Table.endCell
  | .footnote id => plain.addText (mark "footnote" id)
  | .endnote id => plain.addText (mark "endnote" id)
  | .embeddedObject relationship => plain.addText (mark "embedded object" relationship)
  | .picture file description => plain.addText (pictureMark file description)
  | .paragraphStart _ | .rowEnd | .editStart .. | .editEnd | .bookmarkStart .. | .bookmarkEnd _ =>
      plain

def ofEvents (events : Array Event) : PlainText :=
  events.foldl add {}

end PlainText

end WordStream

import WordStream.Content.Sink

/-!
# The plain text of contents

Contents are what the events tell: paragraphs of runs, marks and links, and tables whose cells hold contents
again. Their plain text is said by recursion over them. The sink makes that text with one paragraph, one
link and a stack of open tables, of which the innermost alone takes blocks while a cell is open in it.
-/

set_option autoImplicit false

namespace WordStream.Contents

inductive Item where
  | run (format : RunFormat) (text : String)
  | footnote (id : Option String)
  | endnote (id : Option String)
  | object (relationship : Option String)
  | picture (file description : Option String)

inductive Inline where
  | item (item : Item)
  | hyperlink (target : Option String) (items : List Item)

inductive Block where
  /-- A paragraph, by the formats with which it is reported to start, several or none, and its content. -/
  | paragraph (starts : List ParagraphFormat) (content : List Inline)
  | table (rows : List (List (List Block)))

/-! ## Their events -/

def Item.event : Item → Event
  | .run format text => .run format text
  | .footnote id => .footnote id
  | .endnote id => .endnote id
  | .object relationship => .embeddedObject relationship
  | .picture file description => .picture file description

def Inline.events : Inline → List Event
  | .item single => [single.event]
  | .hyperlink target items => .hyperlinkStart target :: (items.map Item.event ++ [.hyperlinkEnd])

mutual

def Block.events : Block → List Event
  | .paragraph starts content =>
      starts.map .paragraphStart ++ (content.flatMap Inline.events ++ [.paragraphEnd])
  | .table rows => .tableStart :: (rowsEvents rows ++ [.tableEnd])

def blocksEvents : List Block → List Event
  | [] => []
  | block :: blocks => block.events ++ blocksEvents blocks

def cellsEvents : List (List Block) → List Event
  | [] => []
  | cell :: cells => .cellStart :: (blocksEvents cell ++ .cellEnd :: cellsEvents cells)

def rowsEvents : List (List (List Block)) → List Event
  | [] => []
  | row :: rows => .rowStart :: (cellsEvents row ++ .rowEnd :: rowsEvents rows)

end

/-! ## Their text -/

/-- An id as a mark shows it. -/
def shownId (id : Option String) : String :=
  id.getD "None"

def pictureText : Option String → String
  | none => "[image]"
  | some label => "[image: " ++ label ++ "]"

/-- A picture is marked by its file or else its description, whichever comes first that is not empty. -/
def Item.text : Item → String
  | .run _ text => text
  | .footnote id => "[footnote " ++ shownId id ++ "]"
  | .endnote id => "[endnote " ++ shownId id ++ "]"
  | .object relationship => "[embedded object " ++ shownId relationship ++ "]"
  | .picture file description => pictureText ((file.toList ++ description.toList).find? (· ≠ ""))

def targetText : Option String → String
  | none => ""
  | some target => if target = "" then "" else " <" ++ target ++ ">"

def Inline.text : Inline → String
  | .item single => single.text
  | .hyperlink target items => String.join (items.map Item.text) ++ targetText target

mutual

/-- The text of a block, with a separator between the rows of a table. -/
def Block.text (separator : String) : Block → String
  | .paragraph _ content => String.join (content.map Inline.text)
  | .table rows => separator.intercalate (rowTexts rows)

def blockTexts (separator : String) : List Block → List String
  | [] => []
  | block :: blocks => block.text separator :: blockTexts separator blocks

/-- The texts of cells: the blocks of each with spaces between them, without blanks at the ends. -/
def cellTexts : List (List Block) → List String
  | [] => []
  | cell :: cells => Text.trim (" ".intercalate (blockTexts " | " cell)) :: cellTexts cells

def rowTexts : List (List (List Block)) → List String
  | [] => []
  | row :: rows => "\t".intercalate (cellTexts row) :: rowTexts rows

end

def text (blocks : List Block) : String :=
  "\n".intercalate (blockTexts "\n" blocks)

end WordStream.Contents

namespace WordStream.PlainText

open Contents

/-! ## Events one after the other -/

def addEvents (plain : PlainText) (events : List Event) : PlainText :=
  events.foldl add plain

@[simp]
theorem addEvents_nil (plain : PlainText) : plain.addEvents [] = plain := rfl

@[simp]
theorem addEvents_cons (plain : PlainText) (event : Event) (events : List Event) :
    plain.addEvents (event :: events) = (plain.add event).addEvents events := rfl

@[simp]
theorem addEvents_append (plain : PlainText) (former latter : List Event) :
    plain.addEvents (former ++ latter) = (plain.addEvents former).addEvents latter :=
  List.foldl_append

/-! ## Paragraphs -/

@[simp]
theorem addText_empty (plain : PlainText) : plain.addText "" = plain := by
  simp [addText]

@[simp]
theorem addText_addText (plain : PlainText) (former latter : String) :
    (plain.addText former).addText latter = plain.addText (former ++ latter) := by
  simp [addText, String.append_assoc]

theorem filter_filled (label : Option String) :
    label.filter (!·.isEmpty) = label.toList.find? (· ≠ "") := by
  cases label with
  | none => rfl
  | some label => by_cases empty : label = "" <;> simp [Option.filter_some, empty]

theorem pictureMark_eq (file description : Option String) :
    pictureMark file description =
      pictureText ((file.toList ++ description.toList).find? (· ≠ "")) := by
  unfold pictureMark
  rw [filter_filled, filter_filled, List.find?_append, Option.orElse_eq_orElse,
    ← Option.or_eq_orElse]
  cases (file.toList.find? (· ≠ "")).or (description.toList.find? (· ≠ "")) <;> rfl

theorem add_item (plain : PlainText) (item : Item) :
    plain.add item.event = plain.addText item.text := by
  cases item with
  | run | footnote | endnote | object => rfl
  | picture file description => exact congrArg plain.addText (pictureMark_eq file description)

theorem addEvents_items (plain : PlainText) (items : List Item) :
    plain.addEvents (items.map Item.event) =
      plain.addText (String.join (items.map Item.text)) := by
  induction items generalizing plain with
  | nil => simp
  | cons item items ih => simp [ih, add_item]

theorem endLink_eq (plain : PlainText) :
    plain.endLink = { plain.addText (targetText plain.link) with link := none } := by
  unfold endLink targetText
  cases linked : plain.link with
  | none => simp
  | some target =>
      by_cases empty : target = ""
      · simp [empty]
      · simp only [empty, if_false]

/-- A link is written behind its items, and none is left open. -/
theorem addEvents_inline {plain : PlainText} (unlinked : plain.link = none) (inline : Inline) :
    plain.addEvents inline.events = plain.addText inline.text := by
  cases inline with
  | item item => exact plain.add_item item
  | hyperlink target items =>
      have opened : plain.add (.hyperlinkStart target) = { plain with link := target } := rfl
      have closed (linked : PlainText) : linked.add .hyperlinkEnd = linked.endLink := rfl
      rw [Inline.events, addEvents_cons, opened, addEvents_append, addEvents_items,
        addEvents_cons, addEvents_nil, closed, endLink_eq]
      simp [Inline.text, addText, unlinked, String.append_assoc]

theorem addEvents_content {plain : PlainText} (unlinked : plain.link = none)
    (content : List Inline) :
    plain.addEvents (content.flatMap Inline.events) =
      plain.addText (String.join (content.map Inline.text)) := by
  induction content generalizing plain with
  | nil => simp
  | cons inline content ih =>
      have still : (plain.addText inline.text).link = none := unlinked
      rw [List.flatMap_cons, addEvents_append, addEvents_inline unlinked, ih still]
      simp

theorem addEvents_starts (plain : PlainText) (starts : List ParagraphFormat) :
    plain.addEvents (starts.map .paragraphStart) = plain := by
  induction starts with
  | nil => rfl
  | cons start starts ih => exact ih

/-! ## Tables -/

/-- Plain text between two blocks, by what is finished and the open tables around. -/
def between (blocks : Array String) (tables : List Table) : PlainText :=
  { blocks, tables }

theorem addEvents_paragraph (separator : String) (blocks : Array String) (tables : List Table)
    (starts : List ParagraphFormat) (content : List Inline) :
    (between blocks tables).addEvents (Block.paragraph starts content).events =
      (between blocks tables).addBlock ((Block.paragraph starts content).text separator) := by
  have unlinked : (between blocks tables).link = none := rfl
  have ended (plain : PlainText) :
      plain.add .paragraphEnd = { plain.addBlock plain.paragraph with paragraph := "" } := rfl
  rw [Block.events, addEvents_append, addEvents_starts, addEvents_append,
    addEvents_content unlinked, addEvents_cons, addEvents_nil, ended, Block.text]
  generalize String.join (content.map Inline.text) = written
  have whole : ((between blocks tables).addText written).paragraph = written := String.empty_append
  rw [whole]
  cases tables with
  | nil => rfl
  | cons table outer =>
      obtain ⟨rows, cell⟩ := table
      cases cell <;> rfl

/-- The rows of a table as the sink holds them. -/
def rowArrays (rows : List (List (List Block))) : Array (Array String) :=
  (rows.map fun row => (cellTexts row).toArray).toArray

theorem rowTexts_eq_map (rows : List (List (List Block))) :
    rowTexts rows = rows.map fun row => "\t".intercalate (cellTexts row) := by
  induction rows with
  | nil => rw [rowTexts, List.map_nil]
  | cons row rows ih => rw [rowTexts, ih, List.map_cons]

theorem render_rowArrays (separator : String) (rows : List (List (List Block))) :
    Table.render separator { rows := rowArrays rows } = separator.intercalate (rowTexts rows) := by
  rw [Table.render, join, rowArrays, rowTexts_eq_map]
  simp [join, Function.comp_def]

theorem endCell_push (rows : Array (Array String)) (cells blocks : Array String) :
    Table.endCell { rows := rows.push cells, cell := some blocks } =
      { rows := rows.push (cells.push (Text.trim (join " " blocks))) } := by
  have filled : (rows.push cells).isEmpty = false := by simp [Array.isEmpty]
  have last (cell : String) :
      (rows.push cells).modify ((rows.push cells).size - 1) (·.push cell) =
        rows.push (cells.push cell) := by
    apply Array.ext
    · simp
    · intro i _ _
      simp [Array.getElem_modify, Array.getElem_push]
      grind
  rw [Table.endCell, filled]
  exact congrArg (Table.mk · none) (last _)

-- Inside of tables nothing reaches what is finished. The open cell takes a block for each block, the open row
-- a text for each cell, and the open table a row for each row.
mutual

theorem addEvents_block (finished : Array String) (rows : Array (Array String)) (blocks : Array String)
    (outer : List Table) :
    ∀ block : Block,
      (between finished ({ rows, cell := some blocks } :: outer)).addEvents block.events =
        between finished ({ rows, cell := some (blocks.push (block.text " | ")) } :: outer)
  | .paragraph starts content => addEvents_paragraph " | " finished _ starts content
  | .table inner => by
      have told := addEvents_rows finished #[] ({ rows, cell := some blocks } :: outer) inner
      have begun : (between finished ({ rows, cell := some blocks } :: outer)).add .tableStart =
          between finished ({} :: { rows, cell := some blocks } :: outer) := rfl
      have ended : (between finished
            ({ rows := rowArrays inner } :: { rows, cell := some blocks } :: outer)).add .tableEnd =
          between finished ({ rows, cell := some (blocks.push
            (Table.render " | " { rows := rowArrays inner })) } :: outer) := rfl
      rw [Array.empty_append] at told
      rw [Block.events, addEvents_cons, begun, addEvents_append, told, addEvents_cons,
        addEvents_nil, ended, render_rowArrays, Block.text]

theorem addEvents_blocks (finished : Array String) (rows : Array (Array String)) (blocks : Array String)
    (outer : List Table) :
    ∀ more : List Block,
      (between finished ({ rows, cell := some blocks } :: outer)).addEvents (blocksEvents more) =
        between finished
          ({ rows, cell := some (blocks ++ (blockTexts " | " more).toArray) } :: outer)
  | [] => by simp [blocksEvents, blockTexts]
  | block :: more => by
      rw [blocksEvents, addEvents_append, addEvents_block, addEvents_blocks, blockTexts]
      simp

theorem addEvents_cells (finished : Array String) (rows : Array (Array String)) (cells : Array String)
    (outer : List Table) :
    ∀ row : List (List Block),
      (between finished ({ rows := rows.push cells } :: outer)).addEvents (cellsEvents row) =
        between finished ({ rows := rows.push (cells ++ (cellTexts row).toArray) } :: outer)
  | [] => by simp [cellsEvents, cellTexts]
  | cell :: row => by
      have begun : (between finished ({ rows := rows.push cells } :: outer)).add .cellStart =
          between finished ({ rows := rows.push cells, cell := some #[] } :: outer) := rfl
      have ended (blocks : Array String) :
          (between finished ({ rows := rows.push cells, cell := some blocks } :: outer)).add
              .cellEnd =
            between finished
              (Table.endCell { rows := rows.push cells, cell := some blocks } :: outer) := rfl
      rw [cellsEvents, addEvents_cons, begun, addEvents_append, addEvents_blocks, addEvents_cons,
        ended, endCell_push, addEvents_cells, cellTexts]
      simp [join]

theorem addEvents_rows (finished : Array String) (done : Array (Array String)) (outer : List Table) :
    ∀ rows : List (List (List Block)),
      (between finished ({ rows := done } :: outer)).addEvents (rowsEvents rows) =
        between finished ({ rows := done ++ rowArrays rows } :: outer)
  | [] => by simp [rowsEvents, rowArrays]
  | row :: rows => by
      have begun : (between finished ({ rows := done } :: outer)).add .rowStart =
          between finished ({ rows := done.push #[] } :: outer) := rfl
      have ended (plain : PlainText) : plain.add .rowEnd = plain := rfl
      rw [rowsEvents, addEvents_cons, begun, addEvents_append, addEvents_cells, addEvents_cons,
        ended, addEvents_rows]
      simp [rowArrays]

end

/-! ## Outside of tables -/

theorem addEvents_outermost (finished : Array String) (block : Block) :
    (between finished []).addEvents block.events =
      between (finished.push (block.text "\n")) [] := by
  cases block with
  | paragraph starts content => exact addEvents_paragraph "\n" finished [] starts content
  | table rows =>
      have begun : (between finished []).add .tableStart = between finished [{}] := rfl
      have told := addEvents_rows finished #[] [] rows
      rw [Array.empty_append] at told
      have ended : (between finished [{ rows := rowArrays rows }]).add .tableEnd =
          between (finished.push (Table.render "\n" { rows := rowArrays rows })) [] := rfl
      rw [Block.events, addEvents_cons, begun, addEvents_append, told, addEvents_cons,
        addEvents_nil, ended, render_rowArrays, Block.text]

theorem addEvents_blocksEvents (finished : Array String) (blocks : List Block) :
    (between finished []).addEvents (blocksEvents blocks) =
      between (finished ++ (blockTexts "\n" blocks).toArray) [] := by
  induction blocks generalizing finished with
  | nil => simp [blocksEvents, blockTexts]
  | cons block blocks ih =>
      rw [blocksEvents, addEvents_append, addEvents_outermost, ih, blockTexts]
      simp

/-- Told the events of contents, the plain text sink holds their text and nothing that is still open. -/
theorem addAll_blocksEvents (policy : Policy) (blocks : List Block) :
    let told := (Sink.plainText policy).addAll {} (blocksEvents blocks)
    told.text = Contents.text blocks ∧
      told = { blocks := (blockTexts "\n" blocks).toArray } := by
  have told : (Sink.plainText policy).addAll {} (blocksEvents blocks) =
      { blocks := (blockTexts "\n" blocks).toArray } := by
    have outermost := addEvents_blocksEvents #[] blocks
    rw [Array.empty_append] at outermost
    exact outermost
  rw [told]
  exact ⟨rfl, rfl⟩

example :
    Contents.text
      [.paragraph [] [.item (.run {} "See "), .hyperlink "url" [.run {} "here"]],
        .table [[[.paragraph [] [.item (.run {} " one ")], .table [[[], []], []]], []]]] =
      "See here <url>\none  \t |\t" := by
  decide +kernel

end WordStream.PlainText

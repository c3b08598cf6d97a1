import WordStream.Proofs.Body.Element
import WordStream.Proofs.Text.Integer

/-!
# Translating a manuscript

A manuscript is what the author of a document sees: paragraphs of formatted text, with links, and
tables of them. Written as markup and translated it is told in order, each part with exactly its
own properties, and the translation ends as it began.
-/

set_option autoImplicit false

namespace WordStream.Body

open Markup (Attributes Tree joinName)

/-! ## Manuscripts -/

/-- An integer that can be read back once it is written. -/
structure Numeral where
  value : Int
  short : (Nat.toDigits 10 value.natAbs).length ≤ Text.maxIntegerDigits

inductive Piece where
  | text (content : String)
  | tab
  | lineBreak

structure Run where
  /-- The formatting, unless the run states none. -/
  format : Option RunFormat
  pieces : List Piece

inductive Inline where
  | run (run : Run)
  | hyperlink (relationship : String) (runs : List Run)

structure Numbering where
  level : Option Numeral
  id : Option Numeral

structure Properties where
  style : Option String
  numbering : Option Numbering

structure Paragraph where
  properties : Option Properties
  content : List Inline

inductive Block where
  | paragraph (paragraph : Paragraph)
  | table (rows : List (List (List Block)))

/-! ## Their markup -/

def valueElement (tag : Tag) (value : String) : Tree :=
  wordElement tag [(joinName wordSpace "val", value)] []

def Piece.tree : Piece → Tree
  | .text content => wordElement .text [] [.text content]
  | .tab => wordElement .tab [] []
  | .lineBreak => wordElement .lineBreak [] []

def switchTrees (tag : Tag) (switched : Bool) : List Tree :=
  if switched then [wordElement tag [] []] else []

def runFormatTree (format : RunFormat) : Tree :=
  wordElement .runFormat [] (switchTrees .bold format.bold ++ switchTrees .italic format.italic)

def Run.tree (run : Run) : Tree :=
  wordElement .run [] (run.format.toList.map runFormatTree ++ run.pieces.map Piece.tree)

def Inline.tree : Inline → Tree
  | .run single => single.tree
  | .hyperlink relationship runs =>
      wordElement .hyperlink [(joinName relationshipSpace "id", relationship)] (runs.map Run.tree)

def numeralTree (tag : Tag) (numeral : Numeral) : Tree :=
  valueElement tag (toString numeral.value)

def Numbering.tree (numbering : Numbering) : Tree :=
  wordElement .numbering []
    (numbering.level.toList.map (numeralTree .level) ++
      numbering.id.toList.map (numeralTree .numberingId))

def Properties.tree (properties : Properties) : Tree :=
  wordElement .paragraphFormat []
    (properties.style.toList.map (valueElement .paragraphStyle) ++
      properties.numbering.toList.map Numbering.tree)

def Paragraph.tree (paragraph : Paragraph) : Tree :=
  wordElement .paragraph []
    (paragraph.properties.toList.map Properties.tree ++ paragraph.content.map Inline.tree)

mutual

def Block.tree : Block → Tree
  | .paragraph paragraph => paragraph.tree
  | .table rows => wordElement .table [] (rowTrees rows)

def blockTrees : List Block → List Tree
  | [] => []
  | block :: blocks => block.tree :: blockTrees blocks

def cellTrees : List (List Block) → List Tree
  | [] => []
  | cell :: cells => wordElement .cell [] (blockTrees cell) :: cellTrees cells

def rowTrees : List (List (List Block)) → List Tree
  | [] => []
  | row :: rows => wordElement .row [] (cellTrees row) :: rowTrees rows

end

def documentTree (blocks : List Block) : Tree :=
  .element (joinName wordSpace "document") []
    [.element (joinName wordSpace "body") [] (blockTrees blocks)]

/-! ## Their events -/

def Piece.content : Piece → String
  | .text content => content
  | .tab => "\t"
  | .lineBreak => "\n"

def piecesText (pieces : List Piece) : String :=
  String.join (pieces.map Piece.content)

def Run.events (run : Run) : List Event :=
  [.run (run.format.getD {}) (piecesText run.pieces)]

def Inline.events (context : Context) : Inline → List Event
  | .run single => single.events
  | .hyperlink relationship runs =>
      .hyperlinkStart (context.target? relationship) :: (runs.flatMap Run.events ++ [.hyperlinkEnd])

/-- An integer that may be missing, as it is reported. -/
def reported (numeral : Option Numeral) : Int :=
  (numeral.map Numeral.value).getD (-1)

def Properties.format (properties : Properties) : ParagraphFormat where
  style := properties.style
  level := reported (properties.numbering.bind Numbering.level)
  numbering := reported (properties.numbering.bind Numbering.id)

/-- What reports that a paragraph starts: its properties, else its content if it has any. -/
def Paragraph.announcement (paragraph : Paragraph) : List Event :=
  match paragraph.properties with
  | some properties => [.paragraphStart properties.format]
  | none => if paragraph.content.isEmpty then [] else [.paragraphStart {}]

def Paragraph.events (context : Context) (paragraph : Paragraph) : List Event :=
  paragraph.announcement ++ (paragraph.content.flatMap (Inline.events context) ++ [.paragraphEnd])

mutual

def Block.events (context : Context) : Block → List Event
  | .paragraph paragraph => paragraph.events context
  | .table rows => .tableStart :: (rowsEvents context rows ++ [.tableEnd])

def blocksEvents (context : Context) : List Block → List Event
  | [] => []
  | block :: blocks => block.events context ++ blocksEvents context blocks

def cellsEvents (context : Context) : List (List Block) → List Event
  | [] => []
  | cell :: cells =>
      .cellStart :: (blocksEvents context cell ++ [.cellEnd]) ++ cellsEvents context cells

def rowsEvents (context : Context) : List (List (List Block)) → List Event
  | [] => []
  | row :: rows => .rowStart :: (cellsEvents context row ++ [.rowEnd]) ++ rowsEvents context rows

end

/-! ## Their translation -/

variable {context : Context}

def runState (format : RunFormat) (buffer : String) : State :=
  { inRun := true, runFormat := format, buffer }

def propertiesState (format : ParagraphFormat) : State :=
  { inParagraphFormat := true, paragraphFormat := format }

def numberingState (format : ParagraphFormat) : State :=
  { inParagraphFormat := true, inNumbering := true, paragraphFormat := format }

/-- The state in a paragraph, before its content if it is pending. -/
def paragraphState (pending : Bool) : State :=
  { paragraphPending := pending }

theorem State.gated_of_flat {state : State}
    (flat : state.choiceDepth = 0 ∧ state.fallbackDepth = 0) : state.gated context = false := by
  simp [State.gated, flat.1, flat.2]

theorem carries_wordElement (tag : Tag) {attributes : Attributes} {children : List Tree}
    {before opened inner after : State} {opening events closing all : List Event}
    (named : tag ≠ .edit .none)
    (held : Carries context opened (Tree.callsOfList children) inner events)
    (opens : startTag context attributes { before with paragraphPending := false } tag =
      { state := opened, events := opening })
    (closes : endTag context inner tag = { state := after, events := closing })
    (outside : before.choiceDepth = 0 ∧ before.fallbackDepth = 0)
    (inside : inner.choiceDepth = 0 ∧ inner.fallbackDepth = 0)
    (whole : before.announcement (.content tag) ++ opening ++ (events ++ closing) = all) :
    Carries context before (wordElement tag attributes children).calls after all :=
  carries_of_shown (Kind.ofTag?_wordSpace named) rfl held opens closes
    (State.gated_of_flat outside) (State.gated_of_flat inside) whole

theorem carries_leaf (tag : Tag) {attributes : Attributes} {before after : State}
    (named : tag ≠ .edit .none)
    (opens : startTag context attributes { before with paragraphPending := false } tag =
      { state := after })
    (closes : endTag context after tag = { state := after })
    (outside : before.choiceDepth = 0 ∧ before.fallbackDepth = 0)
    (inside : after.choiceDepth = 0 ∧ after.fallbackDepth = 0)
    (silent : before.announcement (.content tag) = []) :
    Carries context before (wordElement tag attributes []).calls after [] :=
  carries_wordElement tag named (.nil after) opens closes outside inside (by rw [silent]; rfl)

/-- Trees that lead back to where they began may stand one after the other. -/
theorem carries_map {α : Type} {tree : α → Tree} {events : α → List Event} {state : State}
    (each : ∀ item, Carries context state (tree item).calls state (events item)) :
    ∀ items : List α,
      Carries context state (Tree.callsOfList (items.map tree)) state (items.flatMap events)
  | [] => .nil state
  | item :: items => (each item).append (carries_map each items)

theorem Carries.only {tree : Tree} {before after : State} {events : List Event}
    (carries : Carries context before tree.calls after events) :
    Carries context before (Tree.callsOfList [tree]) after events := by
  have same : Tree.callsOfList [tree] = tree.calls := List.append_nil _
  exact same ▸ carries

theorem get?_only (name value : String) :
    Attributes.get? [(name, value)] name = some value := by
  rw [Attributes.get?, List.lookup_cons_self]

/-! ### Runs -/

theorem Piece.carries (format : RunFormat) (buffer : String) (piece : Piece) :
    Carries context (runState format buffer) piece.tree.calls
      (runState format (buffer ++ piece.content)) [] := by
  cases piece with
  | text content =>
      have told : Carries context { runState format buffer with inText := true }
          (Tree.callsOfList [.text content])
          { runState format (buffer ++ content) with inText := true } [] := by
        refine .single fun policy => ?_
        rw [receive_data content (State.gated_of_flat ⟨rfl, rfl⟩)]
        simp [keepsContent, keepsText, runState, State.write]
      exact carries_wordElement .text (by decide) told rfl rfl ⟨rfl, rfl⟩ ⟨rfl, rfl⟩ rfl
  | tab => exact carries_leaf .tab (by decide) rfl rfl ⟨rfl, rfl⟩ ⟨rfl, rfl⟩ rfl
  | lineBreak => exact carries_leaf .lineBreak (by decide) rfl rfl ⟨rfl, rfl⟩ ⟨rfl, rfl⟩ rfl

theorem carries_pieces (format : RunFormat) (pieces : List Piece) (buffer : String) :
    Carries context (runState format buffer) (Tree.callsOfList (pieces.map Piece.tree))
      (runState format (buffer ++ piecesText pieces)) [] := by
  induction pieces generalizing buffer with
  | nil =>
      have same : buffer ++ piecesText [] = buffer := by simp [piecesText]
      rw [same]
      exact .nil _
  | cons piece pieces ih =>
      have same : buffer ++ piecesText (piece :: pieces) =
          buffer ++ piece.content ++ piecesText pieces := by
        simp [piecesText, String.append_assoc]
      rw [same]
      exact (piece.carries format buffer).append (ih (buffer ++ piece.content))

theorem carries_bold (bold : Bool) :
    Carries context { inRun := true, inRunFormat := true }
      (Tree.callsOfList (switchTrees .bold bold))
      { inRun := true, inRunFormat := true, runFormat := { bold } } [] := by
  cases bold with
  | false => exact .nil _
  | true => exact .only (carries_leaf .bold (by decide) rfl rfl ⟨rfl, rfl⟩ ⟨rfl, rfl⟩ rfl)

theorem carries_italic (bold italic : Bool) :
    Carries context { inRun := true, inRunFormat := true, runFormat := { bold } }
      (Tree.callsOfList (switchTrees .italic italic))
      { inRun := true, inRunFormat := true, runFormat := { bold, italic } } [] := by
  cases italic with
  | false => exact .nil _
  | true => exact .only (carries_leaf .italic (by decide) rfl rfl ⟨rfl, rfl⟩ ⟨rfl, rfl⟩ rfl)

theorem carries_runFormat (format : RunFormat) :
    Carries context (runState {} "") (runFormatTree format).calls (runState format "") [] := by
  have switches : Carries context { inRun := true, inRunFormat := true }
      (Tree.callsOfList (switchTrees .bold format.bold ++ switchTrees .italic format.italic))
      { inRun := true, inRunFormat := true, runFormat := format } [] := by
    rw [Tree.callsOfList_append]
    exact (carries_bold format.bold).append (carries_italic format.bold format.italic)
  exact carries_wordElement .runFormat (by decide) switches rfl rfl ⟨rfl, rfl⟩ ⟨rfl, rfl⟩ rfl

/-- A run, which reports a pending paragraph first. -/
theorem Run.carries (run : Run) (pending : Bool) :
    Carries context (paragraphState pending) run.tree.calls {}
      ((if pending then [.paragraphStart {}] else []) ++ run.events) := by
  have formatted : Carries context (runState {} "")
      (Tree.callsOfList (run.format.toList.map runFormatTree))
      (runState (run.format.getD {}) "") [] := by
    cases run.format with
    | none => exact .nil _
    | some format => exact .only (carries_runFormat format)
  have written := formatted.append (carries_pieces (run.format.getD {}) run.pieces "")
  rw [String.empty_append, ← Tree.callsOfList_append] at written
  exact carries_wordElement .run (by decide) written rfl rfl ⟨rfl, rfl⟩ ⟨rfl, rfl⟩
    (by cases pending <;> rfl)

/-! ### Paragraphs -/

theorem Inline.carries (inline : Inline) (pending : Bool) :
    Carries context (paragraphState pending) inline.tree.calls {}
      ((if pending then [.paragraphStart {}] else []) ++ inline.events context) := by
  cases inline with
  | run single => exact single.carries pending
  | hyperlink relationship runs =>
      have held : Carries context {} (Tree.callsOfList (runs.map Run.tree)) {}
          (runs.flatMap Run.events) :=
        carries_map (fun run => run.carries false) runs
      exact carries_wordElement .hyperlink (by decide) held rfl rfl ⟨rfl, rfl⟩ ⟨rfl, rfl⟩
        (by cases pending <;>
          simp [State.announcement, paragraphState, Inline.events, linkTarget?, get?_only])

/-- The content of a paragraph that states no properties reports the paragraph if there is any. -/
theorem carries_content (pending : Bool) (content : List Inline) :
    Carries context (paragraphState pending) (Tree.callsOfList (content.map Inline.tree))
      (paragraphState (pending && content.isEmpty))
      ((if pending && !content.isEmpty then [.paragraphStart {}] else []) ++
        content.flatMap (Inline.events context)) := by
  cases content with
  | nil => cases pending <;> exact .nil _
  | cons inline content =>
      have first : Carries context (paragraphState pending) inline.tree.calls {}
          ((if pending then [.paragraphStart {}] else []) ++ inline.events context) :=
        inline.carries pending
      have rest : Carries context {} (Tree.callsOfList (content.map Inline.tree)) {}
          (content.flatMap (Inline.events context)) :=
        carries_map (fun inline => inline.carries false) content
      -- Only the first part of the content can find the paragraph pending.
      have written := first.append rest
      rw [List.append_assoc] at written
      cases pending with
      | false => exact written
      | true => exact written

theorem integerValue_numeral (numeral : Numeral) :
    integerValue [(joinName wordSpace "val", toString numeral.value)] = numeral.value := by
  rw [integerValue, wordAttribute?, get?_only, Option.bind_some,
    Text.readInteger?_toString numeral.short, Option.getD_some]

theorem carries_level (format : ParagraphFormat) (level : Option Numeral)
    (unset : format.level = -1) :
    Carries context (numberingState format)
      (Tree.callsOfList (level.toList.map (numeralTree .level)))
      (numberingState { format with level := reported level }) [] := by
  cases level with
  | none =>
      rw [reported, Option.map_none, Option.getD_none, ← unset]
      exact .nil _
  | some numeral =>
      refine .only (carries_leaf .level (by decide) ?_ rfl ⟨rfl, rfl⟩ ⟨rfl, rfl⟩ rfl)
      rw [startTag, integerValue_numeral]
      rfl

theorem carries_numberingId (format : ParagraphFormat) (id : Option Numeral)
    (unset : format.numbering = -1) :
    Carries context (numberingState format)
      (Tree.callsOfList (id.toList.map (numeralTree .numberingId)))
      (numberingState { format with numbering := reported id }) [] := by
  cases id with
  | none =>
      rw [reported, Option.map_none, Option.getD_none, ← unset]
      exact .nil _
  | some numeral =>
      refine .only (carries_leaf .numberingId (by decide) ?_ rfl ⟨rfl, rfl⟩ ⟨rfl, rfl⟩ rfl)
      rw [startTag, integerValue_numeral]
      rfl

theorem Numbering.carries (style : Option String) (numbering : Numbering) :
    Carries context (propertiesState { style }) numbering.tree.calls
      (propertiesState
        { style, level := reported numbering.level, numbering := reported numbering.id }) [] := by
  have held : Carries context (numberingState { style }) _ _ _ :=
    (carries_level { style } numbering.level rfl).append
      (carries_numberingId { style, level := reported numbering.level } numbering.id rfl)
  rw [← Tree.callsOfList_append] at held
  exact carries_wordElement .numbering (by decide) held rfl rfl ⟨rfl, rfl⟩ ⟨rfl, rfl⟩ rfl

theorem Properties.carries (properties : Properties) :
    Carries context (paragraphState true) properties.tree.calls {}
      [.paragraphStart properties.format] := by
  have style : Carries context (propertiesState {})
      (Tree.callsOfList (properties.style.toList.map (valueElement .paragraphStyle)))
      (propertiesState { style := properties.style }) [] := by
    cases properties.style with
    | none => exact .nil _
    | some style =>
        refine .only (carries_leaf .paragraphStyle (by decide) ?_ rfl ⟨rfl, rfl⟩ ⟨rfl, rfl⟩ rfl)
        rw [startTag, wordAttribute?, get?_only]
        rfl
  have numbering : Carries context (propertiesState { style := properties.style })
      (Tree.callsOfList (properties.numbering.toList.map Numbering.tree))
      (propertiesState properties.format) [] := by
    rw [Properties.format]
    cases properties.numbering with
    | none => exact .nil _
    | some numbering => exact .only (numbering.carries properties.style)
  have held := style.append numbering
  rw [← Tree.callsOfList_append] at held
  exact carries_wordElement .paragraphFormat (by decide) held rfl rfl ⟨rfl, rfl⟩ ⟨rfl, rfl⟩ rfl

theorem Paragraph.carries (paragraph : Paragraph) :
    Carries context {} paragraph.tree.calls {} (paragraph.events context) := by
  obtain ⟨properties, content⟩ := paragraph
  cases properties with
  | some properties =>
      have held : Carries context (paragraphState true) _ _ _ :=
        properties.carries.append (carries_content false content)
      exact carries_wordElement .paragraph (by decide) held rfl rfl ⟨rfl, rfl⟩ ⟨rfl, rfl⟩ rfl
  | none =>
      refine carries_wordElement .paragraph (by decide) (carries_content true content) rfl rfl
        ⟨rfl, rfl⟩ ⟨rfl, rfl⟩ ?_
      cases content <;> simp [Paragraph.events, Paragraph.announcement, State.announcement]

/-! ### Blocks -/

mutual

theorem Block.carries :
    ∀ block : Block, Carries context {} block.tree.calls {} (block.events context)
  | .paragraph paragraph => paragraph.carries
  | .table rows =>
      carries_wordElement .table (by decide) (carries_rows rows) rfl rfl ⟨rfl, rfl⟩ ⟨rfl, rfl⟩ rfl

theorem carries_blocks :
    ∀ blocks : List Block,
      Carries context {} (Tree.callsOfList (blockTrees blocks)) {} (blocksEvents context blocks)
  | [] => .nil _
  | block :: blocks => block.carries.append (carries_blocks blocks)

theorem carries_cells :
    ∀ cells : List (List Block),
      Carries context {} (Tree.callsOfList (cellTrees cells)) {} (cellsEvents context cells)
  | [] => .nil _
  | cell :: cells =>
      have first : Carries context {} (wordElement .cell [] (blockTrees cell)).calls {}
          (.cellStart :: (blocksEvents context cell ++ [.cellEnd])) :=
        carries_wordElement .cell (by decide) (carries_blocks cell) rfl rfl ⟨rfl, rfl⟩ ⟨rfl, rfl⟩ rfl
      first.append (carries_cells cells)

theorem carries_rows :
    ∀ rows : List (List (List Block)),
      Carries context {} (Tree.callsOfList (rowTrees rows)) {} (rowsEvents context rows)
  | [] => .nil _
  | row :: rows =>
      have first : Carries context {} (wordElement .row [] (cellTrees row)).calls {}
          (.rowStart :: (cellsEvents context row ++ [.rowEnd])) :=
        carries_wordElement .row (by decide) (carries_cells row) rfl rfl ⟨rfl, rfl⟩ ⟨rfl, rfl⟩ rfl
      first.append (carries_rows rows)

end

theorem carries_other {tag : String} {children : List Tree} {events : List Event}
    (found : Kind.ofTag? tag = some .other)
    (held : Carries context {} (Tree.callsOfList children) {} events) :
    Carries context {} (Tree.element tag [] children).calls {} events :=
  carries_of_shown found rfl held rfl rfl (State.gated_of_flat ⟨rfl, rfl⟩)
    (State.gated_of_flat ⟨rfl, rfl⟩) (List.append_nil events)

/-- A document is told in order: every paragraph with its own properties, every run with its own
formatting and text, every link with its own target. Nothing is left for what may come after. -/
theorem turns_document (context : Context) (blocks : List Block) {turns : List Turn}
    (told : turns.map Prod.snd = (documentTree blocks).calls) :
    (Session.turns context {} turns).events.toList = blocksEvents context blocks ∧
      (Session.turns context {} turns).state = {} ∧
        (Session.turns context {} turns).badName = false := by
  have body : Carries context {}
      (Tree.element (joinName wordSpace "body") [] (blockTrees blocks)).calls {}
      (blocksEvents context blocks) :=
    carries_other (by decide +kernel) (carries_blocks blocks)
  have document : Carries context {} (documentTree blocks).calls {} (blocksEvents context blocks) :=
    carries_other (by decide +kernel) (.only body)
  obtain ⟨state, events, badName⟩ := document {} turns rfl told
  exact ⟨by simp [events], state, badName⟩

def listTable : List Block :=
  [.table [[[
    .paragraph
      { properties := some
          { style := some "List"
            numbering := some { level := some ⟨0, by decide⟩, id := some ⟨3, by decide⟩ } }
        content :=
          [.run { format := some { bold := true }, pieces := [.text "One", .tab, .text " "] },
            .hyperlink "next" [{ format := none, pieces := [.text "two"] }]] },
    .paragraph { properties := none, content := [] }]]]]

theorem turns_listTable :
    (Session.turns { target? := some } {}
        ((documentTree listTable).calls.map fun call => ({}, call))).events.toList =
      [.tableStart, .rowStart, .cellStart,
        .paragraphStart { style := some "List", level := 0, numbering := 3 },
        .run { bold := true } "One\t ", .hyperlinkStart (some "next"), .run {} "two",
        .hyperlinkEnd, .paragraphEnd, .paragraphEnd, .cellEnd, .rowEnd, .tableEnd] :=
  (turns_document { target? := some } listTable (told_of_constant _ _)).1

end WordStream.Body

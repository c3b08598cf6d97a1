import WordStream.Proofs.Body.Element

/-!
# Reading a body by its open elements

A reading that keeps no flags. It keeps the open elements outside skipped branches, innermost
first, and wherever it has to know what it is inside of it looks for an ancestor. Of everything
else it remembers what a translation does.
-/

set_option autoImplicit false

namespace WordStream.Body

open Markup (Attributes Call Tree joinName)

namespace Ancestry

/-! ## Tests of the ancestors -/

def within (ancestors : List Kind) (tag : Tag) : Bool :=
  ancestors.any fun ancestor => ancestor == .content tag

def edit : List Kind → EditKind
  | [] => .none
  | .content (.edit kind) :: _ => kind
  | _ :: outer => edit outer

/-- Whether text is kept for the run in the making. In the text of a run only moved text can be
left out; elsewhere only deleted text can be kept, blank or not by what is open. -/
def keeps (policy : Policy) (ancestors : List Kind) (content : String) : Bool :=
  if within ancestors .text then edit ancestors != .moveFrom || policy.moveFromText
  else
    policy.deletedText &&
      if Text.isBlankText content then within ancestors .deletedText
      else edit ancestors == .delete

end Ancestry

open Ancestry (within)

/-- What is remembered of a body besides its open elements. -/
structure Memory where
  paragraphPending : Bool := false
  pictureId : Option String := none
  pictureDescription : Option String := none
  buffer : String := ""
  runFormat : RunFormat := {}
  paragraphFormat : ParagraphFormat := {}
deriving DecidableEq, Repr

namespace Memory

def write (memory : Memory) (text : String) : Memory :=
  { memory with buffer := memory.buffer ++ text }

def announced (memory : Memory) : Memory :=
  { memory with paragraphPending := false }

def announcement (memory : Memory) (kind : Kind) : List Event :=
  if memory.paragraphPending && kind != .content .paragraphFormat then
    [.paragraphStart memory.paragraphFormat]
  else []

def opened (attributes : Attributes) (ancestors : List Kind) (memory : Memory) : Kind → Memory
  | .content .tab => if within ancestors .paragraphFormat then memory else memory.write "\t"
  | .content .lineBreak | .content .carriageReturn => memory.write "\n"
  | .content .paragraph => { memory with paragraphPending := true }
  | .content .bold =>
      if within ancestors .run && within ancestors .runFormat then
        { memory with runFormat := { memory.runFormat with bold := switchedOn attributes } }
      else memory
  | .content .italic =>
      if within ancestors .run && within ancestors .runFormat then
        { memory with runFormat := { memory.runFormat with italic := switchedOn attributes } }
      else memory
  | .content .paragraphStyle =>
      if within ancestors .paragraphFormat then
        { memory with
          paragraphFormat :=
            { memory.paragraphFormat with style := wordAttribute? attributes "val" } }
      else memory
  | .content .level =>
      if within ancestors .paragraphFormat && within ancestors .numbering then
        { memory with
          paragraphFormat := { memory.paragraphFormat with level := integerValue attributes } }
      else memory
  | .content .numberingId =>
      if within ancestors .paragraphFormat && within ancestors .numbering then
        { memory with
          paragraphFormat := { memory.paragraphFormat with numbering := integerValue attributes } }
      else memory
  | .content .blip =>
      { memory with pictureId := attributes.get? (joinName relationshipSpace "embed") }
  | .content .drawingProperties => { memory with pictureDescription := attributes.get? "descr" }
  | .content .imageData =>
      { memory with
        pictureId := attributes.get? (joinName relationshipSpace "id")
        pictureDescription := attributes.get? (joinName officeSpace "title") }
  | _ => memory

def openingEvents (context : Context) (attributes : Attributes) : Kind → List Event
  | .content .table => [.tableStart]
  | .content .row => [.rowStart]
  | .content .cell => [.cellStart]
  | .content .hyperlink => [.hyperlinkStart (linkTarget? context attributes)]
  | .content .bookmarkStart =>
      [.bookmarkStart (wordAttribute? attributes "id") (wordAttribute? attributes "name")]
  | .content .bookmarkEnd => [.bookmarkEnd (wordAttribute? attributes "id")]
  | .content .footnote => [.footnote (wordAttribute? attributes "id")]
  | .content .endnote => [.endnote (wordAttribute? attributes "id")]
  | .content (.edit kind) =>
      [.editStart (wordAttribute? attributes "author") (editDate? attributes) kind]
  | .content .oleObject =>
      match scanObject? attributes with
      | some (some "Embed", relationship) => [.embeddedObject relationship]
      | _ => []
  | _ => []

def closed (memory : Memory) : Kind → Memory
  | .content .run => { memory with buffer := "", runFormat := {} }
  | .content .paragraph => { memory with paragraphPending := false, paragraphFormat := {} }
  | .content .paragraphFormat => { memory with paragraphFormat := {} }
  | .content .picture | .content .legacyPicture =>
      { memory with pictureId := none, pictureDescription := none }
  | _ => memory

def closingEvents (context : Context) (memory : Memory) : Kind → List Event
  | .content .run => [.run memory.runFormat memory.buffer]
  | .content .paragraph => [.paragraphEnd]
  | .content .paragraphFormat => [.paragraphStart memory.paragraphFormat]
  | .content .table => [.tableEnd]
  | .content .row => [.rowEnd]
  | .content .cell => [.cellEnd]
  | .content .hyperlink => [.hyperlinkEnd]
  | .content (.edit _) => [.editEnd]
  | .content .picture | .content .legacyPicture =>
      [.picture (memory.pictureId.bind context.target?) memory.pictureDescription]
  | _ => []

end Memory

/-- A reading of a body by its open elements. -/
structure Ancestry where
  /-- The open elements outside skipped branches, innermost first. -/
  ancestors : List Kind := []
  /-- The open elements from the outermost skipped branch inwards. -/
  skipping : Nat := 0
  memory : Memory := {}
  events : Array Event := #[]

namespace Ancestry

def start (context : Context) (ancestry : Ancestry) (attributes : Attributes) (kind : Kind) :
    Ancestry :=
  if 0 < ancestry.skipping || kind.skipped context then
    { ancestry with skipping := ancestry.skipping + 1 }
  else
    { ancestry with
      ancestors := kind :: ancestry.ancestors
      memory := ancestry.memory.announced.opened attributes ancestry.ancestors kind
      events :=
        ancestry.events ++
          (ancestry.memory.announcement kind ++ Memory.openingEvents context attributes kind) }

def finish (context : Context) (ancestry : Ancestry) : Ancestry :=
  if 0 < ancestry.skipping then { ancestry with skipping := ancestry.skipping - 1 }
  else
    match ancestry.ancestors with
    | [] => ancestry
    | kind :: outer =>
        { ancestry with
          ancestors := outer
          memory := ancestry.memory.closed kind
          events := ancestry.events ++ ancestry.memory.closingEvents context kind }

def data (policy : Policy) (ancestry : Ancestry) (content : String) : Ancestry :=
  if ancestry.skipping = 0 && keeps policy ancestry.ancestors content then
    { ancestry with memory := ancestry.memory.write content }
  else ancestry

/-- Takes one call. An end closes the innermost open element. -/
def call (context : Context) (policy : Policy) (ancestry : Ancestry) : Call → Ancestry
  | .start tag attributes =>
      match Kind.ofTag? tag with
      | some kind => ancestry.start context attributes kind
      | none => ancestry
  | .finish _ => ancestry.finish context
  | .data content => ancestry.data policy content

def turns (context : Context) (ancestry : Ancestry) (sequence : List Turn) : Ancestry :=
  sequence.foldl (fun ancestry (policy, call) => ancestry.call context policy call) ancestry

@[simp]
theorem turns_nil (context : Context) (ancestry : Ancestry) :
    ancestry.turns context [] = ancestry := rfl

@[simp]
theorem turns_cons (context : Context) (ancestry : Ancestry) (policy : Policy) (call : Call)
    (rest : List Turn) :
    ancestry.turns context ((policy, call) :: rest) =
      (ancestry.call context policy call).turns context rest := rfl

theorem turns_append (context : Context) (ancestry : Ancestry) (former latter : List Turn) :
    ancestry.turns context (former ++ latter) =
      (ancestry.turns context former).turns context latter :=
  List.foldl_append

mutual

theorem turns_of_skipping {context : Context} {ancestry : Ancestry}
    (skipping : 0 < ancestry.skipping) :
    ∀ {tree : Tree} {turns : List Turn}, tree.all Tree.isNamed = true →
      turns.map Prod.snd = tree.calls → ancestry.turns context turns = ancestry
  | .text content, turns, _, told => by
      obtain ⟨policy, rfl⟩ := turns_of_text told
      simp [call, data, Nat.ne_of_gt skipping]
  | .element tag attributes children, turns, named, told => by
      rw [Tree.all, Bool.and_eq_true] at named
      obtain ⟨kind, found⟩ := Kind.exists_ofTag? named.1
      obtain ⟨first, last, inner, rfl, inside⟩ := turns_of_element told
      have deeper : ancestry.call context first (.start tag attributes) =
          { ancestry with skipping := ancestry.skipping + 1 } := by
        simp [call, found, start, skipping]
      rw [turns_cons, turns_append, deeper,
        turnsList_of_skipping (Nat.succ_pos _) named.2 inside]
      simp [call, finish]

theorem turnsList_of_skipping {context : Context} {ancestry : Ancestry}
    (skipping : 0 < ancestry.skipping) :
    ∀ {trees : List Tree} {turns : List Turn}, Tree.allOfList Tree.isNamed trees = true →
      turns.map Prod.snd = Tree.callsOfList trees → ancestry.turns context turns = ancestry
  | [], turns, _, told => by rw [List.map_eq_nil_iff.1 told, turns_nil]
  | tree :: trees, turns, named, told => by
      rw [Tree.allOfList, Bool.and_eq_true] at named
      obtain ⟨former, latter, rfl, formerTold, latterTold⟩ := turns_of_cons told
      rw [turns_append, turns_of_skipping skipping named.1 formerTold,
        turnsList_of_skipping skipping named.2 latterTold]

end

theorem turns_of_skipped {context : Context} {ancestry : Ancestry} {tag : String} {kind : Kind}
    {attributes : Attributes} {children : List Tree} {turns : List Turn}
    (found : Kind.ofTag? tag = some kind) (skipped : kind.skipped context = true)
    (named : Tree.allOfList Tree.isNamed children = true)
    (told : turns.map Prod.snd = (Tree.element tag attributes children).calls) :
    ancestry.turns context turns = ancestry := by
  obtain ⟨first, last, inner, rfl, inside⟩ := turns_of_element told
  have skips : ancestry.call context first (.start tag attributes) =
      { ancestry with skipping := ancestry.skipping + 1 } := by
    simp [call, found, start, skipped]
  rw [turns_cons, turns_append, skips, turnsList_of_skipping (Nat.succ_pos _) named inside]
  simp [call, finish]

end Ancestry

end WordStream.Body

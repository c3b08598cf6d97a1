import WordStream.Proofs.Body.Ancestry
import WordStream.Proofs.Body.EmbeddedObject

/-!
# Flags in place of ancestors

A translation keeps no stack, yet where flagged elements do not re-enter themselves it reports what
a reading by the open elements reports: every flag is then a test of the ancestors. An end clears
its flag for good, so this is where re-entrance would show.
-/

set_option autoImplicit false

namespace WordStream.Body

open Markup (Attributes Call Tree joinName splitName?)
open Ancestry (within)

/-! ## Re-entrance -/

def Kind.flagged : Kind → Bool
  | .content .run | .content .runFormat | .content .text | .content .paragraphFormat
  | .content .numbering | .content .deletedText => true
  | _ => false

def Kind.edits : Kind → Bool
  | .content (.edit _) => true
  | _ => false

/-- Whether an element of one kind inside one of another sets what the other has set: the same
flag, or the kind of edit. -/
def Kind.reenters (outer inner : Kind) : Bool :=
  (outer.flagged && inner == outer) || (outer.edits && inner.edits)

mutual

/-- Whether no element of a tree outside skipped branches re-enters an ancestor, one of those
around the tree or one within it. -/
def neverReenters (context : Context) (ancestors : List Kind) : Tree → Bool
  | .element tag _ children =>
      match Kind.ofTag? tag with
      | some kind =>
          kind.skipped context ||
            ((ancestors.all fun ancestor => !ancestor.reenters kind) &&
              neverReentersOfList context (kind :: ancestors) children)
      | none => true
  | .text _ => true

def neverReentersOfList (context : Context) (ancestors : List Kind) : List Tree → Bool
  | [] => true
  | tree :: trees =>
      neverReenters context ancestors tree && neverReentersOfList context ancestors trees

end

/-! ## The state by the ancestors -/

namespace Ancestry

def fallbacks : List Kind → Nat
  | [] => 0
  | .branch .fallback :: outer => fallbacks outer + 1
  | _ :: outer => fallbacks outer

/-- The state that stands for ancestors and a memory. Whether it is inside a picture is never asked
and depends on more than the ancestors. -/
def state (ancestors : List Kind) (memory : Memory) (inPicture : Bool) : State where
  inRun := within ancestors .run
  inRunFormat := within ancestors .runFormat
  inText := within ancestors .text
  inParagraphFormat := within ancestors .paragraphFormat
  inNumbering := within ancestors .numbering
  inPicture
  inDeletedText := within ancestors .deletedText
  paragraphPending := memory.paragraphPending
  edit := edit ancestors
  choiceDepth := 0
  fallbackDepth := fallbacks ancestors
  pictureId := memory.pictureId
  pictureDescription := memory.pictureDescription
  buffer := memory.buffer
  runFormat := memory.runFormat
  paragraphFormat := memory.paragraphFormat

variable {context : Context} {ancestors : List Kind} {memory : Memory} {inPicture : Bool}

theorem state_ite (condition : Bool) (left right : Memory) :
    state ancestors (if condition then left else right) inPicture =
      if condition then state ancestors left inPicture else state ancestors right inPicture := by
  cases condition <;> rfl

theorem startKind_state {kind : Kind} (attributes : Attributes) (ancestors : List Kind)
    (memory : Memory) (inPicture : Bool) (named : (scanObject? attributes).isSome = true)
    (shown : kind.skipped context = false) :
    ∃ inPicture' : Bool,
      startKind context attributes (state ancestors memory inPicture) kind =
        { state := state (kind :: ancestors) (memory.opened attributes ancestors kind) inPicture',
          events := Memory.openingEvents context attributes kind } := by
  cases kind with
  | branch branch =>
      cases branch with
      | choice => cases shown
      | fallback => exact ⟨inPicture, rfl⟩
  | other => exact ⟨inPicture, rfl⟩
  | content tag =>
      cases tag with
      | tab | bold | italic | paragraphStyle | level | numberingId =>
          refine ⟨inPicture, ?_⟩
          simp only [startKind, startTag, Memory.opened, state_ite]
          rfl
      | oleObject =>
          obtain ⟨⟨type, relationship⟩, scanned⟩ := Option.isSome_iff_exists.1 named
          refine ⟨inPicture, ?_⟩
          simp only [startKind, startTag, Memory.openingEvents, scanned]
          by_cases embedded : type = some "Embed"
          · subst embedded
            rfl
          · simp only [embedded, if_false]
            split
            · simp_all
            · rfl
      | picture => exact ⟨true, rfl⟩
      | _ => exact ⟨inPicture, rfl⟩

theorem within_eq_false {tag : Tag} (flagged : (Kind.content tag).flagged = true)
    (free : ∀ outer ∈ ancestors, outer.reenters (.content tag) = false) :
    within ancestors tag = false := by
  rw [within, List.any_eq_false]
  intro outer member same
  obtain rfl : outer = .content tag := by simpa using same
  have entered := free _ member
  simp [Kind.reenters, flagged] at entered

theorem edit_eq_none {kind : EditKind}
    (free : ∀ outer ∈ ancestors, outer.reenters (.content (.edit kind)) = false) :
    edit ancestors = .none := by
  induction ancestors with
  | nil => rfl
  | cons outer rest ih =>
      have first := free outer List.mem_cons_self
      have others := ih fun ancestor member => free ancestor (List.mem_cons_of_mem _ member)
      cases outer with
      | branch branch => exact others
      | other => exact others
      | content tag =>
          cases tag with
          | edit found => simp [Kind.reenters, Kind.edits] at first
          | _ => exact others

/-- The end of an element clears its flag, which no ancestor may have set. -/
theorem finishKind_state {kind : Kind} (memory : Memory) (inPicture : Bool)
    (shown : kind.skipped context = false)
    (free : ∀ outer ∈ ancestors, outer.reenters kind = false) :
    ∃ inPicture' : Bool,
      finishKind context (state (kind :: ancestors) memory inPicture) kind =
        { state := state ancestors (memory.closed kind) inPicture',
          events := memory.closingEvents context kind } := by
  cases kind with
  | branch branch =>
      cases branch with
      | choice => cases shown
      | fallback => exact ⟨inPicture, rfl⟩
  | other => exact ⟨inPicture, rfl⟩
  | content tag =>
      cases tag with
      | run | runFormat | text | paragraphFormat | numbering | deletedText =>
          refine ⟨inPicture, ?_⟩
          simp only [finishKind, endTag, Memory.closed, Memory.closingEvents, state,
            within_eq_false rfl free]
          rfl
      | edit kind =>
          refine ⟨inPicture, ?_⟩
          simp only [finishKind, endTag, Memory.closed, Memory.closingEvents, state,
            edit_eq_none free]
          rfl
      | picture | legacyPicture => exact ⟨false, rfl⟩
      | _ => exact ⟨inPicture, rfl⟩

/-! ## Where nothing is skipped -/

theorem fallbacks_eq_zero (skips : context.skipFallback = true)
    (shown : ∀ ancestor ∈ ancestors, ancestor.skipped context = false) :
    fallbacks ancestors = 0 := by
  induction ancestors with
  | nil => rfl
  | cons ancestor outer ih =>
      have rest := ih fun each member => shown each (List.mem_cons_of_mem _ member)
      have first := shown ancestor List.mem_cons_self
      cases ancestor with
      | branch branch =>
          cases branch with
          | choice => exact rest
          | fallback => simp [Kind.skipped, skips] at first
      | content tag => exact rest
      | other => exact rest

theorem gated_state (shown : ∀ ancestor ∈ ancestors, ancestor.skipped context = false) :
    (state ancestors memory inPicture).gated context = false := by
  rw [← Bool.not_eq_true, State.gated_iff]
  rintro (choices | ⟨skips, open_⟩)
  · exact absurd choices (Nat.lt_irrefl 0)
  · have none : (state ancestors memory inPicture).fallbackDepth = 0 :=
      fallbacks_eq_zero skips shown
    exact absurd none (Nat.ne_of_gt open_)

theorem keepsContent_state (policy : Policy) (content : String) :
    keepsContent policy (state ancestors memory inPicture) content =
      keeps policy ancestors content := by
  simp only [keepsContent, keepsBlank, keepsText, keeps, state]
  rcases Bool.eq_false_or_eq_true (within ancestors .text) with inside | outside
  · simp [inside]
  · rcases Bool.eq_false_or_eq_true (Text.isBlankText content) with blank | filled
    · simp [outside, blank, Bool.and_comm]
    · simp [outside, filled, Bool.and_comm]

theorem isSome_scanObject? {attributes : Attributes} {tag : String}
    (named : Tree.hasNamedAttributes tag attributes = true) :
    (scanObject? attributes).isSome = true := by
  rw [Option.isSome_iff_ne_none, Ne, scanObject?_eq_none_iff]
  rintro ⟨entry, member, unclosed⟩
  exact all_isSome_splitName?_iff.1 named entry member unclosed

/-! ## Step by step -/

/-- A session that stands for a reading with the given ancestors, outside skipped branches. -/
structure Mirrors (context : Context) (ancestors : List Kind) (session : Session)
    (ancestry : Ancestry) : Prop where
  stands : ∃ inPicture, session.state = state ancestors ancestry.memory inPicture
  inside : ancestry.ancestors = ancestors
  passing : ancestry.skipping = 0
  shown : ∀ ancestor ∈ ancestors, ancestor.skipped context = false
  reported : session.events = ancestry.events
  named : session.badName = false

namespace Mirrors

variable {session : Session} {ancestry : Ancestry} {policy : Policy}

theorem ungated (mirrors : Mirrors context ancestors session ancestry) :
    session.state.gated context = false := by
  obtain ⟨inPicture, stands⟩ := mirrors.stands
  rw [stands]
  exact gated_state mirrors.shown

theorem call {call : Call} {kinds : List Kind} {events : List Event}
    (mirrors : Mirrors context ancestors session ancestry)
    (received : receive context policy session.state call =
      { state := state kinds memory inPicture, events })
    (shown : ∀ ancestor ∈ kinds, ancestor.skipped context = false)
    (read : ancestry.call context policy call =
      { ancestors := kinds, memory, events := ancestry.events ++ events }) :
    Mirrors context kinds (session.call context policy call)
      (ancestry.call context policy call) := by
  rw [read]
  refine ⟨⟨inPicture, ?_⟩, rfl, rfl, shown, ?_, ?_⟩
  · simp only [Session.call, Session.take, received]
  · simp only [Session.call, Session.take, received, mirrors.reported]
  · simp only [Session.call, Session.take, received, mirrors.named, Bool.or_self]

theorem start {tag : String} {kind : Kind} {attributes : Attributes}
    (mirrors : Mirrors context ancestors session ancestry)
    (found : Kind.ofTag? tag = some kind) (shown : kind.skipped context = false)
    (named : Tree.hasNamedAttributes tag attributes = true) :
    Mirrors context (kind :: ancestors) (session.call context policy (.start tag attributes))
      (ancestry.call context policy (.start tag attributes)) := by
  have read : ancestry.call context policy (.start tag attributes) =
      { ancestors := kind :: ancestors,
        memory := ancestry.memory.announced.opened attributes ancestors kind,
        events := ancestry.events ++
          (ancestry.memory.announcement kind ++ Memory.openingEvents context attributes kind) } := by
    simp [Ancestry.call, found, Ancestry.start, mirrors.passing, shown, mirrors.inside]
  obtain ⟨inPicture, stands⟩ := mirrors.stands
  obtain ⟨inPicture', opened⟩ := startKind_state attributes ancestors
    ancestry.memory.announced inPicture (isSome_scanObject? named) shown
  have received : receive context policy session.state (.start tag attributes) = _ :=
    receive_start attributes found shown mirrors.ungated
  have announced : ({ session.state with paragraphPending := false } : State) =
      state ancestors ancestry.memory.announced inPicture := by
    rw [stands]
    rfl
  have announcement :
      session.state.announcement kind = ancestry.memory.announcement kind := by
    rw [stands]
    rfl
  rw [announced, opened, announcement] at received
  refine mirrors.call received ?_ read
  rintro ancestor (_ | ⟨_, member⟩)
  · exact shown
  · exact mirrors.shown ancestor member

theorem finish {tag : String} {kind : Kind}
    (mirrors : Mirrors context (kind :: ancestors) session ancestry)
    (found : Kind.ofTag? tag = some kind)
    (free : ∀ ancestor ∈ ancestors, ancestor.reenters kind = false) :
    Mirrors context ancestors (session.call context policy (.finish tag))
      (ancestry.call context policy (.finish tag)) := by
  have read : ancestry.call context policy (.finish tag) =
      { ancestors, memory := ancestry.memory.closed kind,
        events := ancestry.events ++ ancestry.memory.closingEvents context kind } := by
    simp [Ancestry.call, Ancestry.finish, mirrors.passing, mirrors.inside]
  obtain ⟨inPicture, stands⟩ := mirrors.stands
  obtain ⟨inPicture', closed⟩ := finishKind_state ancestry.memory inPicture
    (mirrors.shown kind List.mem_cons_self) free
  have received : receive context policy session.state (.finish tag) = _ :=
    receive_finish found mirrors.ungated
  rw [stands, closed, ← stands] at received
  exact mirrors.call received (fun ancestor member => mirrors.shown ancestor (.tail _ member)) read

theorem data (mirrors : Mirrors context ancestors session ancestry) (content : String) :
    Mirrors context ancestors (session.call context policy (.data content))
      (ancestry.call context policy (.data content)) := by
  have read : ancestry.call context policy (.data content) =
      { ancestors,
        memory :=
          if keeps policy ancestors content then ancestry.memory.write content
          else ancestry.memory,
        events := ancestry.events ++ ([] : List Event) } := by
    obtain ⟨read, skipping, memory, events⟩ := ancestry
    obtain rfl : read = ancestors := mirrors.inside
    obtain rfl : skipping = 0 := mirrors.passing
    rw [Ancestry.call, Ancestry.data]
    cases keeps policy read content <;> simp
  obtain ⟨inPicture, stands⟩ := mirrors.stands
  have received : receive context policy session.state (.data content) = _ :=
    receive_data content mirrors.ungated
  have written : (state ancestors ancestry.memory inPicture).write content =
      state ancestors (ancestry.memory.write content) inPicture := rfl
  rw [stands, keepsContent_state, written, ← state_ite, ← stands] at received
  exact mirrors.call received mirrors.shown read

theorem skip {tag : String} {kind : Kind} {attributes : Attributes} {children : List Tree}
    {turns : List Turn} (mirrors : Mirrors context ancestors session ancestry)
    (found : Kind.ofTag? tag = some kind) (skipped : kind.skipped context = true)
    (named : Tree.allOfList Tree.isNamed children = true)
    (told : turns.map Prod.snd = (Tree.element tag attributes children).calls) :
    Mirrors context ancestors (session.turns context turns) (ancestry.turns context turns) := by
  obtain ⟨state, events, badName⟩ :=
    carries_of_skipped found skipped named session turns rfl told
  rw [turns_of_skipped found skipped named told]
  exact ⟨state ▸ mirrors.stands, mirrors.inside, mirrors.passing, mirrors.shown,
    by simpa [mirrors.reported] using events, badName.trans mirrors.named⟩

mutual

/-- A tree that re-enters nothing is reported alike, and leaves the ancestors as they were. -/
theorem tree :
    ∀ {tree : Tree} {ancestors : List Kind} {session : Session} {ancestry : Ancestry}
      {turns : List Turn}, Mirrors context ancestors session ancestry →
        tree.all Tree.isNamed = true → tree.all Tree.hasNamedAttributes = true →
          neverReenters context ancestors tree = true → turns.map Prod.snd = tree.calls →
            Mirrors context ancestors (session.turns context turns)
              (ancestry.turns context turns)
  | .text content, ancestors, session, ancestry, turns, mirrors, _, _, _, told => by
      obtain ⟨policy, rfl⟩ := turns_of_text told
      exact mirrors.data content
  | .element tag attributes children, ancestors, session, ancestry, turns, mirrors, named,
      attributed, never, told => by
      rw [Tree.all, Bool.and_eq_true] at named attributed
      obtain ⟨kind, found⟩ := Kind.exists_ofTag? named.1
      rw [neverReenters, found] at never
      cases skipped : kind.skipped context with
      | true => exact mirrors.skip found skipped named.2 told
      | false =>
          simp only [skipped, Bool.false_or, Bool.and_eq_true, List.all_eq_true,
            Bool.not_eq_true'] at never
          obtain ⟨first, last, inner, rfl, inside⟩ := turns_of_element told
          have opened : Mirrors context (kind :: ancestors)
              (session.call context first (.start tag attributes))
              (ancestry.call context first (.start tag attributes)) :=
            mirrors.start found skipped attributed.1
          have read := treeList opened named.2 attributed.2 never.2 inside
          rw [Session.turns_cons, Session.turns_append, turns_cons, turns_append]
          -- The children leave the element innermost, and its end clears no ancestor's flag.
          exact read.finish found never.1

theorem treeList :
    ∀ {trees : List Tree} {ancestors : List Kind} {session : Session} {ancestry : Ancestry}
      {turns : List Turn}, Mirrors context ancestors session ancestry →
        Tree.allOfList Tree.isNamed trees = true →
          Tree.allOfList Tree.hasNamedAttributes trees = true →
            neverReentersOfList context ancestors trees = true →
              turns.map Prod.snd = Tree.callsOfList trees →
                Mirrors context ancestors (session.turns context turns)
                  (ancestry.turns context turns)
  | [], ancestors, session, ancestry, turns, mirrors, _, _, _, told => by
      rw [List.map_eq_nil_iff.1 told]
      exact mirrors
  | first :: rest, ancestors, session, ancestry, turns, mirrors, named, attributed, never,
      told => by
      rw [Tree.allOfList, Bool.and_eq_true] at named attributed
      rw [neverReentersOfList, Bool.and_eq_true] at never
      obtain ⟨former, latter, rfl, formerTold, latterTold⟩ := turns_of_cons told
      rw [Session.turns_append, turns_append]
      have read := tree mirrors named.1 attributed.1 never.1 formerTold
      exact treeList read named.2 attributed.2 never.2 latterTold

end

end Mirrors

end Ancestry

/-- Where nothing re-enters itself a translation reports what a reading by the open elements
reports, whatever the policies. -/
theorem turns_events_eq_ancestry {context : Context} {tree : Tree} {turns : List Turn}
    (named : tree.all Tree.isNamed = true)
    (attributed : tree.all Tree.hasNamedAttributes = true)
    (never : neverReenters context [] tree = true) (told : turns.map Prod.snd = tree.calls) :
    (Session.turns context {} turns).events = (Ancestry.turns context {} turns).events ∧
      (Session.turns context {} turns).badName = false := by
  have fresh : Ancestry.Mirrors context [] {} {} :=
    { stands := ⟨false, rfl⟩, inside := rfl, passing := rfl, shown := nofun, reported := rfl,
      named := rfl }
  have mirrors := fresh.tree named attributed never told
  exact ⟨mirrors.reported, mirrors.named⟩

def editedParagraph : Tree :=
  wordElement .paragraph []
    [wordElement (.edit .delete) [(joinName wordSpace "author", "Ann")]
      [wordElement .run [] [wordElement .deletedText [] [.text "old", .text " "]]],
     wordElement .run []
      [wordElement .runFormat [] [wordElement .bold [] []],
       branchElement .choice [wordElement .run [] []],
       branchElement .fallback [wordElement .text [] [.text "new"]]]]

theorem turns_editedParagraph :
    (Session.turns { skipFallback := false } {}
        (editedParagraph.calls.map fun call => ({ deletedText := true }, call))).events =
      (Ancestry.turns { skipFallback := false } {}
        (editedParagraph.calls.map fun call => ({ deletedText := true }, call))).events := by
  have named : editedParagraph.all Tree.isNamed = true := by
    simp [editedParagraph, wordElement, branchElement, Tree.all, Tree.allOfList, Tree.isNamed]
  have attributed : editedParagraph.all Tree.hasNamedAttributes = true := by
    simp [editedParagraph, wordElement, branchElement, Tree.all, Tree.allOfList,
      Tree.hasNamedAttributes]
  have never : neverReenters { skipFallback := false } [] editedParagraph = true := by
    simp [editedParagraph, wordElement, branchElement, neverReenters, neverReentersOfList,
      Kind.skipped, Kind.reenters, Kind.flagged, Kind.edits]
  exact (turns_events_eq_ancestry named attributed never (told_of_constant _ _)).1

end WordStream.Body

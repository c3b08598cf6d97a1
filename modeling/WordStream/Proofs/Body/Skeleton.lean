import WordStream.Proofs.Body.Frame

/-!
# The skeleton of a body

The events of a body, but for the starts of paragraphs, come in the order in which the elements outside
skipped branches begin and end. Starts and ends are told apart by two lists that know nothing of each
other; that the gate is the same at both ends of an element is what keeps them in pairs.
-/

set_option autoImplicit false

namespace WordStream.Body

open Markup (Attributes Call Tree joinName splitName?)

/-! ## What the elements of a tree report -/

/-- The type that the attributes of an embedded object give, in whatever namespace. The last one
counts. -/
def objectType? (attributes : Attributes) : Option String :=
  (attributes.reverse.find? fun entry =>
    (splitName? entry.1).map Prod.snd == some "Type").map Prod.snd

def Kind.startKinds (attributes : Attributes) : Kind → List EventKind
  | .content .table => [.tableStart]
  | .content .row => [.rowStart]
  | .content .cell => [.cellStart]
  | .content .hyperlink => [.hyperlinkStart]
  | .content (.edit _) => [.editStart]
  | .content .bookmarkStart => [.bookmarkStart]
  | .content .bookmarkEnd => [.bookmarkEnd]
  | .content .footnote => [.footnote]
  | .content .endnote => [.endnote]
  | .content .oleObject =>
      if objectType? attributes = some "Embed" then [.embeddedObject] else []
  | _ => []

def Kind.endKinds : Kind → List EventKind
  | .content .table => [.tableEnd]
  | .content .row => [.rowEnd]
  | .content .cell => [.cellEnd]
  | .content .hyperlink => [.hyperlinkEnd]
  | .content (.edit _) => [.editEnd]
  | .content .run => [.run]
  | .content .paragraph => [.paragraphEnd]
  | .content .picture | .content .legacyPicture => [.picture]
  | _ => []

mutual

/-- The kinds of events of a tree in document order, starts of paragraphs apart. -/
def skeleton (context : Context) : Tree → List EventKind
  | .element tag attributes children =>
      match Kind.ofTag? tag with
      | some kind =>
          if kind.skipped context then []
          else kind.startKinds attributes ++ skeletonOfList context children ++ kind.endKinds
      | none => []
  | .text _ => []

def skeletonOfList (context : Context) : List Tree → List EventKind
  | [] => []
  | tree :: trees => skeleton context tree ++ skeletonOfList context trees

end

theorem skeleton_of_skipped {context : Context} {tag : String} {kind : Kind}
    {attributes : Attributes} {children : List Tree} (found : Kind.ofTag? tag = some kind)
    (skipped : kind.skipped context = true) :
    skeleton context (.element tag attributes children) = [] := by
  simp only [skeleton, found, skipped, if_true]

theorem skeleton_of_shown {context : Context} {tag : String} {kind : Kind}
    {attributes : Attributes} {children : List Tree} (found : Kind.ofTag? tag = some kind)
    (shown : kind.skipped context = false) :
    skeleton context (.element tag attributes children) =
      kind.startKinds attributes ++ skeletonOfList context children ++ kind.endKinds := by
  simp only [skeleton, found, shown, Bool.false_eq_true, if_false]

theorem skeletonOfList_nil (context : Context) : skeletonOfList context [] = [] := by
  rw [skeletonOfList]

theorem skeletonOfList_cons (context : Context) (tree : Tree) (trees : List Tree) :
    skeletonOfList context (tree :: trees) =
      skeleton context tree ++ skeletonOfList context trees := by
  rw [skeletonOfList]

theorem skeleton_wordElement {context : Context} {tag : Tag} (named : tag ≠ .edit .none)
    (attributes : Attributes) (children : List Tree) :
    skeleton context (wordElement tag attributes children) =
      Kind.startKinds attributes (.content tag) ++ skeletonOfList context children ++
        Kind.endKinds (.content tag) :=
  skeleton_of_shown (Kind.ofTag?_wordSpace named) rfl

theorem skeleton_branchElement (context : Context) (branch : Branch) (children : List Tree) :
    skeleton context (branchElement branch children) =
      if Kind.skipped context (.branch branch) then [] else skeletonOfList context children := by
  unfold branchElement
  rw [skeleton, Kind.ofTag?_compatibilitySpace]
  simp only [Kind.startKinds, Kind.endKinds, List.nil_append, List.append_nil]

/-- Whether the attributes of an embedded object have names with parts. -/
def hasNamedObject (tag : String) (attributes : Attributes) : Bool :=
  Kind.ofTag? tag != some (.content .oleObject) || Tree.hasNamedAttributes tag attributes

/-- The kinds of reported events, starts of paragraphs apart. -/
def reportedKinds (events : List Event) : List EventKind :=
  (events.map Event.kind).filter fun kind => kind != .paragraphStart

theorem reportedKinds_append (former latter : List Event) :
    reportedKinds (former ++ latter) = reportedKinds former ++ reportedKinds latter := by
  simp [reportedKinds]

/-! ## The scan of an embedded object -/

/-- Where all names have parts, the scan finds the type that the attributes give. -/
theorem scanObject?_eq {attributes : Attributes}
    (named : (attributes.all fun entry => (splitName? entry.1).isSome) = true) :
    ∃ relationship : Option String,
      scanObject? attributes = some (objectType? attributes, relationship) := by
  -- The last type counts, so that the induction takes away attributes from the end.
  obtain ⟨backwards, rfl⟩ : ∃ backwards : Attributes, attributes = backwards.reverse :=
    ⟨attributes.reverse, attributes.reverse_reverse.symm⟩
  induction backwards with
  | nil => exact ⟨none, rfl⟩
  | cons entry others ih =>
      rw [List.reverse_cons] at named ⊢
      generalize others.reverse = front at named ih ⊢
      rw [List.all_append, Bool.and_eq_true] at named
      obtain ⟨relationship, scanned⟩ := ih named.1
      obtain ⟨name, value⟩ := entry
      have last : (splitName? name).isSome = true := by simpa using named.2
      obtain ⟨⟨space, localName⟩, parts⟩ := Option.isSome_iff_exists.1 last
      unfold scanObject? at scanned ⊢
      rw [List.foldlM_append, scanned]
      by_cases typed : localName = "Type"
      · refine ⟨relationship, ?_⟩
        simp [objectType?, parts, typed]
      · have others : objectType? (front ++ [(name, value)]) = objectType? front := by
          simp [objectType?, parts, typed]
        rw [others]
        by_cases related : space = relationshipSpace ∧ localName = "id"
        · exact ⟨some value, by simp [parts, related]⟩
        · exact ⟨relationship, by simp [parts, typed, related]⟩

/-! ## What one call reports -/

variable {context : Context}

theorem reportedKinds_announcement (state : State) (kind : Kind) :
    reportedKinds (state.announcement kind) = [] := by
  unfold State.announcement
  split <;> rfl

theorem startKind_reportedKinds {kind : Kind} {attributes : Attributes} (state : State)
    (named : kind = .content .oleObject →
      (attributes.all fun entry => (splitName? entry.1).isSome) = true) :
    reportedKinds (startKind context attributes state kind).events = kind.startKinds attributes ∧
      (startKind context attributes state kind).badName = false := by
  cases kind with
  | branch branch => exact ⟨rfl, rfl⟩
  | other => exact ⟨rfl, rfl⟩
  | content tag =>
      cases tag with
      | oleObject =>
          obtain ⟨relationship, scanned⟩ := scanObject?_eq (named rfl)
          simp only [startKind, startTag, scanned, Kind.startKinds]
          by_cases embeds : objectType? attributes = some "Embed"
          · rw [if_pos embeds, if_pos embeds]
            exact ⟨rfl, trivial⟩
          · rw [if_neg embeds, if_neg embeds]
            exact ⟨rfl, trivial⟩
      | _ => exact ⟨rfl, rfl⟩

theorem finishKind_reportedKinds (state : State) (kind : Kind) :
    reportedKinds (finishKind context state kind).events = kind.endKinds ∧
      (finishKind context state kind).badName = false := by
  cases kind with
  | branch branch => exact ⟨rfl, rfl⟩
  | other => exact ⟨rfl, rfl⟩
  | content tag => cases tag <;> exact ⟨rfl, rfl⟩

/-! ## What a run reports -/

/-- From one session to a later one events of these kinds were reported, and no name stopped it. -/
structure Session.Reports (before after : Session) (kinds : List EventKind) : Prop where
  events : ∃ events : List Event,
    after.events = before.events ++ events ∧ reportedKinds events = kinds
  named : after.badName = before.badName

namespace Session.Reports

variable {before middle after : Session} {former latter : List EventKind}

theorem refl (session : Session) : Reports session session [] :=
  ⟨⟨[], by simp, rfl⟩, rfl⟩

theorem trans (first : Reports before middle former) (second : Reports middle after latter) :
    Reports before after (former ++ latter) := by
  obtain ⟨formerEvents, formerReported, rfl⟩ := first.events
  obtain ⟨latterEvents, latterReported, rfl⟩ := second.events
  refine ⟨⟨formerEvents ++ latterEvents, ?_, reportedKinds_append _ _⟩,
    second.named.trans first.named⟩
  rw [latterReported, formerReported]
  apply Array.ext'
  simp

theorem call {session : Session} {policy : Policy} {call : Call} {outcome : Outcome}
    {kinds : List EventKind} (received : receive context policy session.state call = outcome)
    (reported : reportedKinds outcome.events = kinds ∧ outcome.badName = false) :
    Reports session (session.call context policy call) kinds := by
  refine ⟨⟨outcome.events, ?_, reported.1⟩, ?_⟩
  · simp only [Session.call, Session.take, received]
  · simp only [Session.call, Session.take, received, reported.2, Bool.or_false]

end Session.Reports

mutual

/-- Outside skipped branches a tree is reported by its skeleton. -/
theorem reports_skeleton :
    ∀ {tree : Tree} {session : Session} {turns : List Turn},
      session.state.gated context = false → tree.all Tree.isNamed = true →
        tree.all hasNamedObject = true → turns.map Prod.snd = tree.calls →
          Session.Reports session (session.turns context turns) (skeleton context tree)
  | .text content, session, turns, ungated, _, _, told => by
      obtain ⟨policy, rfl⟩ := turns_of_text told
      exact .call (receive_data content ungated) ⟨rfl, rfl⟩
  | .element tag attributes children, session, turns, ungated, named, attributed, told => by
      rw [Tree.all, Bool.and_eq_true] at named attributed
      obtain ⟨kind, found⟩ := Kind.exists_ofTag? named.1
      cases skipped : kind.skipped context with
      | true =>
          obtain ⟨_, events, badName⟩ :=
            carries_of_skipped found skipped named.2 session turns rfl told
          rw [skeleton_of_skipped found skipped]
          exact ⟨⟨[], events, rfl⟩, badName⟩
      | false =>
          obtain ⟨first, last, inner, rfl, inside⟩ := turns_of_element told
          rw [Session.turns_cons, Session.turns_append, skeleton_of_shown found skipped]
          have scanned : kind = .content .oleObject →
              (attributes.all fun entry => (splitName? entry.1).isSome) = true := by
            rintro rfl
            simpa [hasNamedObject, found, Tree.hasNamedAttributes] using attributed.1
          have opened : Session.Reports session
              (session.call context first (.start tag attributes)) (kind.startKinds attributes) := by
            refine .call (receive_start attributes found skipped ungated) ?_
            obtain ⟨reported, unstopped⟩ : _ ∧ _ := startKind_reportedKinds _ scanned
            refine ⟨?_, unstopped⟩
            rw [reportedKinds_append, reportedKinds_announcement, reported, List.nil_append]
          have openedUngated :
              (session.call context first (.start tag attributes)).state.gated context = false := by
            have gate : (session.call context first (.start tag attributes)).state.gated context =
                (session.state.gated context || kind.skipped context) :=
              receive_start_gated attributes found
            rw [gate, ungated, skipped]
            rfl
          have filled := reportsList_skeleton openedUngated named.2 attributed.2 inside
          have filledUngated := (turnsList_gated named.2 inside).trans openedUngated
          exact (opened.trans filled).trans
            (.call (receive_finish found filledUngated) (finishKind_reportedKinds _ kind))

theorem reportsList_skeleton :
    ∀ {trees : List Tree} {session : Session} {turns : List Turn},
      session.state.gated context = false → Tree.allOfList Tree.isNamed trees = true →
        Tree.allOfList hasNamedObject trees = true →
          turns.map Prod.snd = Tree.callsOfList trees →
            Session.Reports session (session.turns context turns) (skeletonOfList context trees)
  | [], session, turns, _, _, _, told => by
      rw [List.map_eq_nil_iff.1 told]
      exact .refl session
  | tree :: trees, session, turns, ungated, named, attributed, told => by
      rw [Tree.allOfList, Bool.and_eq_true] at named attributed
      obtain ⟨former, latter, rfl, formerTold, latterTold⟩ := turns_of_cons told
      rw [Session.turns_append]
      have first := reports_skeleton ungated named.1 attributed.1 formerTold
      have remains := (turns_gated named.1 formerTold).trans ungated
      exact first.trans (reportsList_skeleton remains named.2 attributed.2 latterTold)

end

/-! ## Brackets -/

/-- The things that are reported by where they start and where they end. -/
inductive Bracket where
  | table
  | row
  | cell
  | hyperlink
  | edit

namespace Bracket

def start : Bracket → EventKind
  | table => .tableStart
  | row => .rowStart
  | cell => .cellStart
  | hyperlink => .hyperlinkStart
  | edit => .editStart

def stop : Bracket → EventKind
  | table => .tableEnd
  | row => .rowEnd
  | cell => .cellEnd
  | hyperlink => .hyperlinkEnd
  | edit => .editEnd

end Bracket

def isBracket : EventKind → Bool
  | .tableStart | .tableEnd | .rowStart | .rowEnd | .cellStart | .cellEnd | .hyperlinkStart
  | .hyperlinkEnd | .editStart | .editEnd => true
  | _ => false

/-- Every start has its end, and what starts between the two ends between them. -/
inductive Nested : List EventKind → Prop where
  | nil : Nested []
  | pair (bracket : Bracket) {inner rest : List EventKind} :
      Nested inner → Nested rest → Nested (bracket.start :: inner ++ bracket.stop :: rest)

theorem Nested.append {former latter : List EventKind} (first : Nested former)
    (second : Nested latter) : Nested (former ++ latter) := by
  induction first with
  | nil => exact second
  | pair bracket inside _ _ restIH =>
      simpa using Nested.pair bracket inside restIH

/-- An element is either a bracket around its children or reports none itself. -/
theorem Kind.brackets (kind : Kind) (attributes : Attributes) :
    (∃ bracket : Bracket, (kind.startKinds attributes).filter isBracket = [bracket.start] ∧
        kind.endKinds.filter isBracket = [bracket.stop]) ∨
      ((kind.startKinds attributes).filter isBracket = [] ∧ kind.endKinds.filter isBracket = []) := by
  cases kind with
  | branch branch => exact .inr ⟨rfl, rfl⟩
  | other => exact .inr ⟨rfl, rfl⟩
  | content tag =>
      cases tag with
      | table => exact .inl ⟨.table, rfl, rfl⟩
      | row => exact .inl ⟨.row, rfl, rfl⟩
      | cell => exact .inl ⟨.cell, rfl, rfl⟩
      | hyperlink => exact .inl ⟨.hyperlink, rfl, rfl⟩
      | edit kind => exact .inl ⟨.edit, rfl, rfl⟩
      | oleObject =>
          refine .inr ⟨?_, rfl⟩
          simp only [Kind.startKinds]
          split <;> rfl
      | _ => exact .inr ⟨rfl, rfl⟩

mutual

theorem nested_skeleton :
    ∀ {tree : Tree}, tree.all Tree.isNamed = true →
      Nested ((skeleton context tree).filter isBracket)
  | .text content, _ => by
      rw [skeleton]
      exact .nil
  | .element tag attributes children, named => by
      rw [Tree.all, Bool.and_eq_true] at named
      obtain ⟨kind, found⟩ := Kind.exists_ofTag? named.1
      cases skipped : kind.skipped context with
      | true =>
          rw [skeleton_of_skipped found skipped]
          exact .nil
      | false =>
          have inside := nestedList_skeleton named.2
          rw [skeleton_of_shown found skipped, List.filter_append, List.filter_append]
          rcases kind.brackets attributes with ⟨bracket, starts, ends⟩ | ⟨starts, ends⟩
          · rw [starts, ends]
            exact .pair bracket inside .nil
          · rw [starts, ends, List.nil_append, List.append_nil]
            exact inside

theorem nestedList_skeleton :
    ∀ {trees : List Tree}, Tree.allOfList Tree.isNamed trees = true →
      Nested ((skeletonOfList context trees).filter isBracket)
  | [], _ => by
      rw [skeletonOfList]
      exact .nil
  | tree :: trees, named => by
      rw [Tree.allOfList, Bool.and_eq_true] at named
      rw [skeletonOfList, List.filter_append]
      exact (nested_skeleton named.1).append (nestedList_skeleton named.2)

end

theorem filter_reportedKinds (events : List Event) :
    (reportedKinds events).filter isBracket = (events.map Event.kind).filter isBracket := by
  unfold reportedKinds
  rw [List.filter_filter]
  refine List.filter_congr fun kind _ => ?_
  cases kind <;> rfl

/-- Whatever the policies, a body is reported by its skeleton, starts of paragraphs apart, and its
tables, rows, cells, hyperlinks and edits are properly nested. -/
theorem turns_kinds_eq_skeleton {context : Context} {tree : Tree} {turns : List Turn}
    (named : tree.all Tree.isNamed = true) (attributed : tree.all hasNamedObject = true)
    (told : turns.map Prod.snd = tree.calls) :
    let events := (Session.turns context {} turns).events.toList
    (events.map Event.kind).filter (fun kind => kind != .paragraphStart) = skeleton context tree ∧
      Nested ((events.map Event.kind).filter isBracket) ∧
        (Session.turns context {} turns).badName = false := by
  intro events
  have outside : ({} : Session).state.gated context = false := by simp [State.gated]
  obtain ⟨⟨reported, whole, kinds⟩, unstopped⟩ :=
    reports_skeleton outside named attributed told
  have all : events = reported := by
    have list := congrArg Array.toList whole
    simpa [events] using list
  rw [all]
  refine ⟨kinds, ?_, unstopped⟩
  rw [← filter_reportedKinds, kinds]
  exact nested_skeleton named

def trackedTable : Tree :=
  wordElement .table []
    [wordElement .row []
      [wordElement .cell []
        [wordElement .paragraph []
          [wordElement (.edit .insert) []
            [wordElement .hyperlink [] [wordElement .run [] [wordElement .text [] [.text "here"]]]]],
         branchElement .choice [wordElement .table [] []],
         branchElement .fallback
          [wordElement .legacyPicture [] [wordElement .oleObject [("Type", "Embed")] []]]]]]

theorem turns_trackedTable :
    ((Session.turns { skipFallback := false } {}
        (trackedTable.calls.map fun call => ({}, call))).events.toList.map Event.kind).filter
          (fun kind => kind != .paragraphStart) =
      [.tableStart, .rowStart, .cellStart, .editStart, .hyperlinkStart, .run, .hyperlinkEnd,
        .editEnd, .paragraphEnd, .embeddedObject, .picture, .cellEnd, .rowEnd, .tableEnd] := by
  have named : trackedTable.all Tree.isNamed = true := by
    simp [trackedTable, wordElement, branchElement, Tree.all, Tree.allOfList, Tree.isNamed]
  have attributed : trackedTable.all hasNamedObject = true := by
    simp [trackedTable, wordElement, branchElement, Tree.all, Tree.allOfList, hasNamedObject,
      Tree.hasNamedAttributes, splitName?]
  have typed : objectType? [("Type", "Embed")] = some "Embed" := by decide +kernel
  refine (turns_kinds_eq_skeleton named attributed (told_of_constant _ _)).1.trans ?_
  have inText : skeleton { skipFallback := false } (.text "here") = [] := by rw [skeleton]
  simp [trackedTable, skeleton_wordElement, skeleton_branchElement, skeletonOfList_cons,
    skeletonOfList_nil, inText, Kind.skipped, Kind.startKinds, Kind.endKinds, typed]

end WordStream.Body

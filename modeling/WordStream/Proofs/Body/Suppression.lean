import WordStream.Proofs.Body.Frame
import WordStream.Proofs.Body.Stackless

/-!
# Suppressed text

While neither deleted nor moved text is kept, the texts within moved content and those outside the text
of runs have no influence: two bodies that differ in nothing else are translated alike, to the same
events and into the same state.
-/

set_option autoImplicit false

namespace WordStream.Body

open Markup (Attributes Call Tree)
open Ancestry (within)

/-- The policy that keeps neither deleted nor moved text. -/
def withholding : Policy := { deletedText := false, moveFromText := false }

/-! ## Bodies that differ in suppressed texts -/

/-- Whether text is suppressed in a place, by the open elements: in a skipped branch, in content that
was moved away, and outside the text of runs. -/
def suppresses (context : Context) (ancestors : List Kind) : Bool :=
  ancestors.any (Kind.skipped context) || within ancestors (.edit .moveFrom) ||
    !within ancestors .text

mutual

/-- Two trees of the same elements, of which suppressed texts at most are different. -/
inductive Alike (context : Context) : List Kind → Tree → Tree → Prop where
  | text {ancestors : List Kind} (content : String) :
      Alike context ancestors (.text content) (.text content)
  | suppressed {ancestors : List Kind} (first second : String) :
      suppresses context ancestors = true → Alike context ancestors (.text first) (.text second)
  | element {ancestors : List Kind} {tag : String} {attributes : Attributes}
      {children others : List Tree} :
      AlikeList context ((Kind.ofTag? tag).toList ++ ancestors) children others →
        Alike context ancestors (.element tag attributes children) (.element tag attributes others)

inductive AlikeList (context : Context) : List Kind → List Tree → List Tree → Prop where
  | nil {ancestors : List Kind} : AlikeList context ancestors [] []
  | cons {ancestors : List Kind} {first second : Tree} {rest others : List Tree} :
      Alike context ancestors first second → AlikeList context ancestors rest others →
        AlikeList context ancestors (first :: rest) (second :: others)

end

theorem Alike.wordElement {context : Context} {ancestors : List Kind} {tag : Tag}
    {attributes : Attributes} {children others : List Tree} (named : tag ≠ .edit .none)
    (inside : AlikeList context (.content tag :: ancestors) children others) :
    Alike context ancestors (wordElement tag attributes children)
      (wordElement tag attributes others) := by
  refine .element ?_
  rw [Kind.ofTag?_wordSpace named]
  exact inside

mutual

/-- Whether no element of a tree outside skipped branches that passes a test is inside of another. -/
def neverNests (context : Context) (test : Kind → Bool) (inside : Bool) : Tree → Bool
  | .element tag _ children =>
      match Kind.ofTag? tag with
      | some kind =>
          kind.skipped context ||
            (!(inside && test kind) &&
              neverNestsOfList context test (test kind || inside) children)
      | none => true
  | .text _ => true

def neverNestsOfList (context : Context) (test : Kind → Bool) (inside : Bool) : List Tree → Bool
  | [] => true
  | tree :: trees =>
      neverNests context test inside tree && neverNestsOfList context test inside trees

end

theorem neverNestsOfList_nil (context : Context) (test : Kind → Bool) (inside : Bool) :
    neverNestsOfList context test inside [] = true := by
  rw [neverNestsOfList]

theorem neverNestsOfList_cons (context : Context) (test : Kind → Bool) (inside : Bool)
    (tree : Tree) (trees : List Tree) :
    neverNestsOfList context test inside (tree :: trees) =
      (neverNests context test inside tree && neverNestsOfList context test inside trees) := by
  rw [neverNestsOfList]

theorem neverNests_wordElement {context : Context} {test : Kind → Bool} {inside : Bool} {tag : Tag}
    (named : tag ≠ .edit .none) (attributes : Attributes) (children : List Tree) :
    neverNests context test inside (wordElement tag attributes children) =
      (!(inside && test (.content tag)) &&
        neverNestsOfList context test (test (.content tag) || inside) children) := by
  rw [wordElement, neverNests, Kind.ofTag?_wordSpace named]
  rfl

/-! ## Behind the gate -/

variable {context : Context} {policy : Policy}

theorem call_data_behind {session : Session} (content : String)
    (gated : session.state.gated context = true) :
    session.call context policy (.data content) = session := by
  simp [Session.call_data, State.takes, gated]

mutual

theorem calls_alike_behind :
    ∀ {first second : Tree} {ancestors : List Kind} {session : Session},
      first.all Tree.isNamed = true → Alike context ancestors first second →
        session.state.gated context = true →
          session.calls context policy first.calls = session.calls context policy second.calls
  | .text content, second, ancestors, session, _, alike, gated => by
      cases alike with
      | text => rfl
      | suppressed _ other _ =>
          simp only [Tree.calls, Session.calls_cons, Session.calls_nil]
          rw [call_data_behind content gated, call_data_behind other gated]
  | .element tag attributes children, second, ancestors, session, named, alike, gated => by
      rw [Tree.all, Bool.and_eq_true] at named
      obtain ⟨kind, found⟩ := Kind.exists_ofTag? named.1
      cases alike with
      | element inside =>
          have opened : (session.call context policy (.start tag attributes)).state.gated context =
              (session.state.gated context || kind.skipped context) :=
            receive_start_gated attributes found
          rw [gated, Bool.true_or] at opened
          simp only [Tree.calls, Session.calls_cons, Session.calls_append]
          rw [callsList_alike_behind named.2 inside opened]

theorem callsList_alike_behind :
    ∀ {first second : List Tree} {ancestors : List Kind} {session : Session},
      Tree.allOfList Tree.isNamed first = true → AlikeList context ancestors first second →
        session.state.gated context = true →
          session.calls context policy (Tree.callsOfList first) =
            session.calls context policy (Tree.callsOfList second)
  | [], _, _, _, _, alike, _ => by
      cases alike
      rfl
  | tree :: trees, _, _, session, named, alike, gated => by
      rw [Tree.allOfList, Bool.and_eq_true] at named
      cases alike with
      | cons first rest =>
          have remains : (session.calls context policy tree.calls).state.gated context = true :=
            (calls_gated named.1).trans gated
          simp only [Tree.callsOfList, Session.calls_append]
          rw [callsList_alike_behind named.2 rest remains,
            calls_alike_behind named.1 first gated]

end

/-! ## Outside skipped branches -/

/-- What the flags of a state say of the open elements, as far as text is concerned. -/
structure Suits (context : Context) (ancestors : List Kind) (state : State) : Prop where
  ungated : state.gated context = false
  shown : ancestors.any (Kind.skipped context) = false
  text : state.inText = true → within ancestors .text = true
  moved : within ancestors (.edit .moveFrom) = true → state.edit = .moveFrom

theorem any_edits_of_within {ancestors : List Kind} {edit : EditKind}
    (inside : within ancestors (.edit edit) = true) : ancestors.any Kind.edits = true := by
  obtain ⟨ancestor, member, same⟩ := List.any_eq_true.1 inside
  obtain rfl := eq_of_beq same
  exact List.any_eq_true.2 ⟨_, member, rfl⟩

theorem Kind.editWithin_eq {kind : Kind} (plain : kind.edits = false) (outer : EditKind) :
    kind.editWithin outer = outer := by
  cases kind with
  | branch | other => rfl
  | content tag =>
      cases tag with
      | edit => cases plain
      | _ => rfl

theorem Kind.editAfter_eq {kind : Kind} (plain : kind.edits = false) (inner : EditKind) :
    kind.editAfter inner = inner := by
  cases kind with
  | branch | other => rfl
  | content tag =>
      cases tag with
      | edit => cases plain
      | _ => rfl

namespace Suits

variable {ancestors : List Kind} {state : State} {kind : Kind}

/-- Suppressed text is not kept. -/
theorem takes_eq_false (suits : Suits context ancestors state)
    (hidden : suppresses context ancestors = true) (content : String) :
    state.takes context withholding content = false := by
  rw [State.takes, suits.ungated, Bool.not_false, Bool.true_and]
  cases inside : state.inText with
  | false => simp [keepsContent, keepsBlank, keepsText, inside, withholding]
  | true =>
      have textOpen := suits.text inside
      simp only [suppresses, suits.shown, textOpen, Bool.false_or, Bool.not_true, Bool.or_false]
        at hidden
      have moved := suits.moved hidden
      simp [keepsContent, keepsText, inside, moved, withholding]

theorem write (suits : Suits context ancestors state) (keep : Bool) (content : String) :
    Suits context ancestors (if keep then state.write content else state) := by
  cases keep with
  | false => exact suits
  | true => exact ⟨suits.ungated, suits.shown, suits.text, suits.moved⟩

theorem start (suits : Suits context ancestors state) (attributes : Attributes)
    (shown : kind.skipped context = false)
    (apart : (ancestors.any Kind.edits && kind.edits) = false) :
    Suits context (kind :: ancestors)
      (startKind context attributes { state with paragraphPending := false } kind).state where
  ungated := by
    have depths : (startKind context attributes { state with paragraphPending := false }
        kind).state.depths = (State.counting { state with paragraphPending := false } kind).depths :=
      startKind_depths attributes _ kind
    rw [State.gated_congr depths, State.gated_counting, shown, Bool.or_false]
    exact suits.ungated
  shown := by
    rw [List.any_cons, shown, suits.shown]
    rfl
  text := by
    intro inside
    rw [(startKind_flags attributes _ kind).1, Bool.or_eq_true] at inside
    rcases inside with opens | inside
    · exact List.any_eq_true.2 ⟨kind, List.mem_cons_self, opens⟩
    · have outer := suits.text inside
      rw [within, List.any_cons, Bool.or_eq_true]
      exact .inr outer
  moved := by
    intro inside
    rw [(startKind_flags attributes _ kind).2]
    rw [within, List.any_cons, Bool.or_eq_true] at inside
    rcases inside with opens | outer
    · obtain rfl := eq_of_beq opens
      rfl
    · have edits := any_edits_of_within outer
      rw [edits, Bool.true_and] at apart
      rw [Kind.editWithin_eq apart]
      exact suits.moved outer

theorem finish (suits : Suits context (kind :: ancestors) state)
    (apart : (ancestors.any Kind.edits && kind.edits) = false)
    (ungated : (finishKind context state kind).state.gated context = false) :
    Suits context ancestors (finishKind context state kind).state where
  ungated
  shown := by
    have shown := suits.shown
    rw [List.any_cons, Bool.or_eq_false_iff] at shown
    exact shown.2
  text := by
    intro inside
    rw [(finishKind_flags state kind).1, Bool.and_eq_true] at inside
    have outer := suits.text inside.2
    rw [within, List.any_cons, Bool.or_eq_true] at outer
    rcases outer with same | outer
    · rw [eq_of_beq same] at inside
      cases inside.1
    · exact outer
  moved := by
    intro outer
    rw [(finishKind_flags state kind).2]
    have edits := any_edits_of_within outer
    rw [edits, Bool.true_and] at apart
    rw [Kind.editAfter_eq apart]
    apply suits.moved
    rw [within, List.any_cons, Bool.or_eq_true]
    exact .inr outer

end Suits

theorem calls_state_of_skipped {tag : String} {kind : Kind} {attributes : Attributes}
    {children : List Tree} (session : Session) (found : Kind.ofTag? tag = some kind)
    (skipped : kind.skipped context = true)
    (named : Tree.allOfList Tree.isNamed children = true) :
    (session.calls context policy (Tree.element tag attributes children).calls).state =
      session.state := by
  rw [Session.calls_eq_turns]
  exact (carries_of_skipped found skipped named session _ rfl (told_of_constant _ _)).1

mutual

/-- Trees that differ in suppressed texts at most are translated alike. -/
theorem calls_alike :
    ∀ {first second : Tree} {ancestors : List Kind} {session : Session},
      first.all Tree.isNamed = true → Alike context ancestors first second →
        Suits context ancestors session.state →
          neverNests context Kind.edits (ancestors.any Kind.edits) first = true →
            session.calls context withholding first.calls =
                session.calls context withholding second.calls ∧
              Suits context ancestors (session.calls context withholding first.calls).state
  | .text content, second, ancestors, session, _, alike, suits, _ => by
      simp only [Tree.calls, Session.calls_cons, Session.calls_nil]
      constructor
      · cases alike with
        | text => rfl
        | suppressed _ other hidden =>
            rw [Tree.calls, Session.calls_cons, Session.calls_nil, Session.call_data,
              Session.call_data, suits.takes_eq_false hidden content, suits.takes_eq_false hidden other]
            rfl
      · rw [Session.call_data]
        exact suits.write _ content
  | .element tag attributes children, second, ancestors, session, named, alike, suits, apart => by
      have gate : (session.calls context withholding
          (Tree.element tag attributes children).calls).state.gated context =
            session.state.gated context := calls_gated named
      rw [Tree.all, Bool.and_eq_true] at named
      obtain ⟨kind, found⟩ := Kind.exists_ofTag? named.1
      rw [neverNests, found] at apart
      cases alike with
      | @element _ _ _ _ others inside =>
          rw [found] at inside
          have opened : (session.call context withholding (.start tag attributes)).state.gated
              context = (session.state.gated context || kind.skipped context) :=
            receive_start_gated attributes found
          cases skipped : kind.skipped context with
          | true =>
              rw [skipped, Bool.or_true] at opened
              rw [calls_state_of_skipped session found skipped named.2]
              refine ⟨?_, suits⟩
              simp only [Tree.calls, Session.calls_cons, Session.calls_append]
              rw [callsList_alike_behind named.2 inside opened]
          | false =>
              simp only [skipped, Bool.false_or, Bool.and_eq_true, Bool.not_eq_true'] at apart
              have within : Suits context (kind :: ancestors)
                  (session.call context withholding (.start tag attributes)).state := by
                rw [state_call_start attributes found skipped suits.ungated]
                exact suits.start attributes skipped apart.1
              obtain ⟨same, filled⟩ := callsList_alike named.2 inside within apart.2
              simp only [Tree.calls, Session.calls_cons, Session.calls_append,
                Session.calls_nil] at gate ⊢
              refine ⟨by rw [same], ?_⟩
              rw [state_call_finish found filled.ungated] at gate ⊢
              exact filled.finish apart.1 (gate.trans suits.ungated)

theorem callsList_alike :
    ∀ {first second : List Tree} {ancestors : List Kind} {session : Session},
      Tree.allOfList Tree.isNamed first = true → AlikeList context ancestors first second →
        Suits context ancestors session.state →
          neverNestsOfList context Kind.edits (ancestors.any Kind.edits) first = true →
            session.calls context withholding (Tree.callsOfList first) =
                session.calls context withholding (Tree.callsOfList second) ∧
              Suits context ancestors
                (session.calls context withholding (Tree.callsOfList first)).state
  | [], _, _, _, _, alike, suits, _ => by
      cases alike
      exact ⟨rfl, suits⟩
  | tree :: trees, _, _, session, named, alike, suits, apart => by
      rw [Tree.allOfList, Bool.and_eq_true] at named
      rw [neverNestsOfList, Bool.and_eq_true] at apart
      cases alike with
      | cons first rest =>
          obtain ⟨same, remains⟩ := calls_alike named.1 first suits apart.1
          obtain ⟨restSame, restSuits⟩ := callsList_alike named.2 rest remains apart.2
          simp only [Tree.callsOfList, Session.calls_append]
          exact ⟨by rw [restSame, same], restSuits⟩

end

/-- While neither deleted nor moved text is kept, two bodies that differ in suppressed texts at most are
translated to the same events and into the same state, if no edit is inside of another. -/
theorem calls_eq_of_alike {context : Context} {first second : Tree}
    (named : first.all Tree.isNamed = true)
    (apart : neverNests context Kind.edits false first = true)
    (alike : Alike context [] first second) :
    Session.calls context withholding {} first.calls =
      Session.calls context withholding {} second.calls := by
  have outside : Suits context [] ({} : Session).state :=
    { ungated := by simp [State.gated], shown := rfl, text := nofun, moved := nofun }
  exact (calls_alike named alike outside apart).1

/-- A paragraph with a text that was moved away, a deleted one and one that stays. -/
def editedTexts (moved deleted : String) : Tree :=
  wordElement .paragraph []
    [wordElement (.edit .moveFrom) []
      [wordElement .run [] [wordElement .text [] [.text moved]]],
     wordElement (.edit .delete) []
      [wordElement .run [] [wordElement .deletedText [] [.text deleted], wordElement .tab [] []]],
     wordElement .run [] [wordElement .text [] [.text "stays"]]]

theorem calls_editedTexts :
    Alike {} [] (editedTexts "gone" "old") (editedTexts "" " \n") ∧
      Session.calls {} withholding {} (editedTexts "gone" "old").calls =
        Session.calls {} withholding {} (editedTexts "" " \n").calls := by
  have named : (editedTexts "gone" "old").all Tree.isNamed = true := by
    simp [editedTexts, wordElement, Tree.all, Tree.allOfList, Tree.isNamed]
  have apart : neverNests {} Kind.edits false (editedTexts "gone" "old") = true := by
    have inText (inside : Bool) (content : String) :
        neverNests {} Kind.edits inside (.text content) = true := by rw [neverNests]
    simp [editedTexts, neverNests_wordElement, neverNestsOfList_cons, neverNestsOfList_nil, inText,
      Kind.edits]
  have moved : Alike {} [.content .text, .content .run, .content (.edit .moveFrom),
      .content .paragraph] (.text "gone") (.text "") := .suppressed _ _ (by decide)
  have deleted : Alike {} [.content .deletedText, .content .run, .content (.edit .delete),
      .content .paragraph] (.text "old") (.text " \n") := .suppressed _ _ (by decide)
  have alike : Alike {} [] (editedTexts "gone" "old") (editedTexts "" " \n") := by
    apply Alike.wordElement (by decide)
    refine .cons ?_ (.cons ?_ (.cons ?_ .nil))
    · apply Alike.wordElement (by decide)
      exact .cons (.wordElement (by decide) (.cons (.wordElement (by decide) (.cons moved .nil))
        .nil)) .nil
    · apply Alike.wordElement (by decide)
      exact .cons (.wordElement (by decide) (.cons (.wordElement (by decide) (.cons deleted .nil))
        (.cons (.wordElement (by decide) .nil) .nil))) .nil
    · apply Alike.wordElement (by decide)
      exact .cons (.wordElement (by decide) (.cons (.text "stays") .nil)) .nil
  exact ⟨alike, calls_eq_of_alike named apart alike⟩

end WordStream.Body

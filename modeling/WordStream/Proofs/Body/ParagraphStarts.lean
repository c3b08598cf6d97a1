import Mathlib.Data.List.Forall2
import WordStream.Proofs.Body.Heading

/-!
# Where paragraphs are reported to start

A paragraph waits to be reported until an element begins in it. As only its own first element outside skipped
branches can be that one, the flag for waiting is settled by the place in the tree: the starts are told from
the tree alone, call by call.
-/

set_option autoImplicit false

namespace WordStream.Body

open Markup (Attributes Call Tree)
open Ancestry (within)

variable {context : Context}

/-! ## What is reported call by call -/

namespace Session

def reports (context : Context) (session : Session) : List Turn → List (List Event)
  | [] => []
  | (policy, call) :: rest =>
      (receive context policy session.state call).events ::
        (session.call context policy call).reports context rest

theorem reports_append (session : Session) (former latter : List Turn) :
    session.reports context (former ++ latter) =
      session.reports context former ++
        (session.turns context former).reports context latter := by
  induction former generalizing session with
  | nil => rfl
  | cons turn rest ih =>
      obtain ⟨policy, call⟩ := turn
      rw [List.cons_append, reports, reports, turns_cons, ih, List.cons_append]

theorem length_reports (session : Session) (turns : List Turn) :
    (session.reports context turns).length = turns.length := by
  induction turns generalizing session with
  | nil => rfl
  | cons turn rest ih =>
      obtain ⟨policy, call⟩ := turn
      rw [reports, List.length_cons, List.length_cons, ih]

theorem events_turns (session : Session) (turns : List Turn) :
    (session.turns context turns).events.toList =
      session.events.toList ++ (session.reports context turns).flatten := by
  induction turns generalizing session with
  | nil => simp [reports]
  | cons turn rest ih =>
      obtain ⟨policy, call⟩ := turn
      rw [turns_cons, ih, reports, List.flatten_cons, ← List.append_assoc]
      simp [Session.call, Session.take]

end Session

/-! ## Cues -/

/-- What a call is to tell of the starts of paragraphs. -/
inductive Cue where
  /-- Nothing is reported at all. -/
  | silence
  /-- No paragraph starts. -/
  | other
  /-- A paragraph starts with its first element, which may be inside of paragraph formatting. -/
  | content (formatted : Bool)
  /-- A paragraph starts with the formatting that ends. -/
  | formatting
deriving DecidableEq, Repr

/-- Whether the events that a call reports are those it is to tell. A start by the first element comes before
all else, and without formatting outside of paragraph formatting. -/
def Cue.Fits : Cue → List Event → Prop
  | .silence, events => events = []
  | .other, events => events.filterMap startedFormat? = []
  | .content formatted, events =>
      ∃ (format : ParagraphFormat) (rest : List Event),
        events = .paragraphStart format :: rest ∧ rest.filterMap startedFormat? = [] ∧
          (formatted = false → format = {})
  | .formatting, events => ∃ format : ParagraphFormat, events = [.paragraphStart format]

def Kind.startCue (ancestors : List Kind) (first : Bool) (kind : Kind) : Cue :=
  if first && kind != .content .paragraphFormat then .content (within ancestors .paragraphFormat)
  else .other

def Kind.endCue (kind : Kind) : Cue :=
  if kind = .content .paragraphFormat then .formatting else .other

/-- Whether a tree is an element outside skipped branches. -/
def isShownElement (context : Context) : Tree → Bool
  | .element tag _ _ => (Kind.ofTag? tag).any fun kind => !kind.skipped context
  | .text _ => false

def silences (sequence : List Call) : List Cue :=
  sequence.map fun _ => .silence

mutual

/-- The cues of the calls that tell a tree, by the open elements around it and by whether it stands before
all other elements of a paragraph, skipped branches apart. -/
def cues (context : Context) (ancestors : List Kind) (first : Bool) : Tree → List Cue
  | .element tag attributes children =>
      match Kind.ofTag? tag with
      | some kind =>
          if kind.skipped context then silences (Tree.element tag attributes children).calls
          else
            kind.startCue ancestors first ::
              (cuesOfList context (kind :: ancestors) (kind == .content .paragraph) children ++
                [kind.endCue])
      | none => silences (Tree.element tag attributes children).calls
  | .text _ => [.silence]

def cuesOfList (context : Context) (ancestors : List Kind) (first : Bool) : List Tree → List Cue
  | [] => []
  | tree :: trees =>
      cues context ancestors first tree ++
        cuesOfList context ancestors (first && !isShownElement context tree) trees

end

/-! ## One call -/

theorem startCue_fits {ancestors : List Kind} {session : Session} (policy : Policy) {tag : String}
    {kind : Kind} (attributes : Attributes) (found : Kind.ofTag? tag = some kind)
    (shown : kind.skipped context = false) (ungated : session.state.gated context = false)
    (suits : ((headingView context).of session).Suits ancestors) :
    (kind.startCue ancestors session.state.paragraphPending).Fits
      (receive context policy session.state (.start tag attributes)).events := by
  rw [receive_start attributes found shown ungated]
  simp only [Kind.startCue, State.announcement]
  split
  · refine ⟨session.state.paragraphFormat, _, rfl, startKind_started attributes _ kind, ?_⟩
    intro outside
    exact suits.plain (suits.formatting.eq_false outside)
  · exact startKind_started attributes _ kind

theorem endCue_fits {session : Session} (policy : Policy) {tag : String} {kind : Kind}
    (found : Kind.ofTag? tag = some kind) (ungated : session.state.gated context = false) :
    kind.endCue.Fits (receive context policy session.state (.finish tag)).events := by
  rw [receive_finish found ungated]
  have started := @finishKind_started context session.state kind
  unfold Kind.endCue
  split
  · next ends =>
      subst ends
      exact ⟨session.state.paragraphFormat, rfl⟩
  · next other =>
      rw [if_neg other] at started
      exact started

theorem silences_fit {sequence : List Call} {reports : List (List Event)}
    (same : sequence.length = reports.length) (silent : reports.flatten = []) :
    List.Forall₂ Cue.Fits (silences sequence) reports := by
  induction sequence generalizing reports with
  | nil =>
      obtain rfl := List.eq_nil_of_length_eq_zero same.symm
      exact .nil
  | cons call rest ih =>
      cases reports with
      | nil => cases same
      | cons events others =>
          rw [List.flatten_cons, List.append_eq_nil_iff] at silent
          exact .cons silent.1 (ih (Nat.succ.inj same) silent.2)

/-! ## Whole trees -/

/-- At the end of an element no paragraph waits: what waits within it could only be the element itself. -/
theorem closed_pending {ancestors : List Kind} {heading : Heading} {kind : Kind}
    (suits : heading.Suits (kind :: ancestors)) : (heading.closed kind).pending = false := by
  rw [Heading.closed, Bool.and_eq_false_iff]
  cases pends : heading.pending with
  | false => exact .inl rfl
  | true =>
      have paragraph := suits.pending pends
      rw [List.head?_cons, Option.some_inj] at paragraph
      rw [paragraph]
      exact .inr rfl

/-- A tree that is an element has any paragraph around it reported; other trees leave it waiting. -/
theorem through_pending {ancestors : List Kind} {tree : Tree} {heading : Heading}
    (suits : heading.Suits ancestors) :
    ((headingView context).through tree heading).pending =
      (heading.pending && !isShownElement context tree) := by
  cases tree with
  | text content =>
      rw [View.through, isShownElement, Bool.not_false, Bool.and_true]
      rfl
  | element tag attributes children =>
      cases found : Kind.ofTag? tag with
      | none => simp [View.through, isShownElement, found]
      | some kind =>
          cases skipped : kind.skipped context with
          | true => simp [View.through, isShownElement, found, skipped]
          | false =>
              have inside : ((headingView context).throughList children
                  (heading.opened attributes kind)).Suits (kind :: ancestors) :=
                headingView_keeps.throughList followsOfList_any (suits.opened attributes kind)
              have shown : isShownElement context (.element tag attributes children) = true := by
                simp [isShownElement, found, skipped]
              rw [View.through_element found skipped, shown, Bool.not_true, Bool.and_false]
              exact closed_pending inside

variable {ancestors : List Kind}

/-- What a session knows of paragraphs after a tree. -/
theorem suits_turns {tree : Tree} {session : Session} {turns : List Turn}
    (ungated : session.state.gated context = false) (named : tree.all Tree.isNamed = true)
    (told : turns.map Prod.snd = tree.calls)
    (suits : ((headingView context).of session).Suits ancestors) :
    ((headingView context).of (session.turns context turns)).Suits ancestors ∧
      (session.turns context turns).state.paragraphPending =
        (session.state.paragraphPending && !isShownElement context tree) := by
  have read : (headingView context).of (session.turns context turns) =
      (headingView context).through tree ((headingView context).of session) :=
    View.of_turns ungated named (fun _ _ => trivial) told
  constructor
  · rw [read]
    exact headingView_keeps.traces.through _ follows_any suits
  · exact (congrArg Heading.pending read).trans (through_pending suits)

mutual

theorem reports_fit :
    ∀ {tree : Tree} {ancestors : List Kind} {session : Session} {turns : List Turn},
      session.state.gated context = false → tree.all Tree.isNamed = true →
        turns.map Prod.snd = tree.calls → ((headingView context).of session).Suits ancestors →
          List.Forall₂ Cue.Fits (cues context ancestors session.state.paragraphPending tree)
            (session.reports context turns)
  | .text content, ancestors, session, turns, ungated, _, told, _ => by
      obtain ⟨policy, rfl⟩ := turns_of_text told
      rw [cues, Session.reports, receive_data content ungated]
      exact .cons rfl .nil
  | .element tag attributes children, ancestors, session, turns, ungated, named, told, suits => by
      rw [Tree.all, Bool.and_eq_true] at named
      obtain ⟨kind, found⟩ := Kind.exists_ofTag? named.1
      cases skipped : kind.skipped context with
      | true =>
          obtain ⟨_, events, _⟩ := carries_of_skipped found skipped named.2 session turns rfl told
          have whole := @Session.events_turns context session turns
          have silent : (session.reports context turns).flatten = [] := by
            rw [events, Array.toList_appendList, List.append_cancel_left_eq] at whole
            exact whole.symm
          have same : (Tree.element tag attributes children).calls.length =
              (session.reports context turns).length := by
            rw [Session.length_reports, ← told, List.length_map]
          simp only [cues, found, skipped, if_true]
          exact silences_fit same silent
      | false =>
          obtain ⟨first, last, inner, rfl, inside⟩ := turns_of_element told
          have opened := gated_call_start first attributes found skipped ungated
          have filled := (turnsList_gated named.2 inside).trans opened
          have within : ((headingView context).of
              (session.call context first (.start tag attributes))).Suits (kind :: ancestors) := by
            rw [View.of_start found skipped ungated]
            exact suits.opened attributes kind
          have pending : (session.call context first
              (.start tag attributes)).state.paragraphPending = (kind == .content .paragraph) := by
            rw [state_call_start attributes found skipped ungated]
            exact startKind_paragraphPending attributes session.state kind
          have children := reportsList_fit opened named.2 inside within
          rw [pending] at children
          simp only [cues, found, skipped, Bool.false_eq_true, if_false]
          rw [Session.reports, Session.reports_append, Session.reports, Session.reports]
          exact .cons (startCue_fits first attributes found skipped ungated suits)
            (List.rel_append children (.cons (endCue_fits last found filled) .nil))

theorem reportsList_fit :
    ∀ {trees : List Tree} {ancestors : List Kind} {session : Session} {turns : List Turn},
      session.state.gated context = false → Tree.allOfList Tree.isNamed trees = true →
        turns.map Prod.snd = Tree.callsOfList trees →
          ((headingView context).of session).Suits ancestors →
            List.Forall₂ Cue.Fits
              (cuesOfList context ancestors session.state.paragraphPending trees)
              (session.reports context turns)
  | [], ancestors, session, turns, _, _, told, _ => by
      rw [List.map_eq_nil_iff.1 told, cuesOfList, Session.reports]
      exact .nil
  | tree :: trees, ancestors, session, turns, ungated, named, told, suits => by
      rw [Tree.allOfList, Bool.and_eq_true] at named
      obtain ⟨former, latter, rfl, formerTold, latterTold⟩ := turns_of_cons told
      have first := reports_fit ungated named.1 formerTold suits
      have remains := (turns_gated named.1 formerTold).trans ungated
      obtain ⟨afterSuits, afterPending⟩ := suits_turns ungated named.1 formerTold suits
      have rest := reportsList_fit remains named.2 latterTold afterSuits
      rw [afterPending] at rest
      rw [cuesOfList, Session.reports_append]
      exact List.rel_append first rest

end

/-- Whatever the policies, the starts of paragraphs are reported where the tree gives the cues for them and
nowhere else: at the start of the first element in a paragraph, unless that is its formatting, and at the
end of all formatting. What stands before the first element reports nothing. -/
theorem turns_reports_cues {tree : Tree} {turns : List Turn}
    (named : tree.all Tree.isNamed = true) (told : turns.map Prod.snd = tree.calls) :
    (Session.turns context {} turns).events.toList = (Session.reports context {} turns).flatten ∧
      List.Forall₂ Cue.Fits (cues context [] false tree) (Session.reports context {} turns) := by
  have outside : ({} : Session).state.gated context = false := by simp [State.gated]
  constructor
  · rw [Session.events_turns]
    rfl
  · exact reports_fit outside named told .initial

/-- A paragraph without elements, one whose first element stands after a skipped branch, and one that stands in
the formatting of another. -/
def waitingParagraphs : List Tree :=
  [wordElement .paragraph [] [.text "none", branchElement .choice [wordElement .run [] []]],
   wordElement .paragraph []
    [branchElement .choice [], wordElement .run [] [], wordElement .run [] []],
   wordElement .paragraph []
    [wordElement .paragraphFormat [] [wordElement .paragraph [] [wordElement .tab [] []]]]]

def waitingCues : List Cue :=
  [.other,
    .other, .silence, .silence, .silence, .silence, .silence, .other,
    .other, .silence, .silence, .content false, .other, .other, .other, .other,
    .other, .other, .other, .content true, .other, .other, .formatting, .other,
    .other]

theorem turns_waitingParagraphs :
    List.Forall₂ Cue.Fits waitingCues
      (Session.reports {} {}
        ((wordElement .table [] waitingParagraphs).calls.map fun call => ({}, call))) := by
  have named : (wordElement .table [] waitingParagraphs).all Tree.isNamed = true := by
    simp [waitingParagraphs, wordElement, branchElement, Tree.all, Tree.allOfList, Tree.isNamed]
  have cued : cues {} [] false (wordElement .table [] waitingParagraphs) = waitingCues := by
    simp [waitingParagraphs, waitingCues, wordElement, branchElement, cues, cuesOfList,
      isShownElement, Kind.skipped, Kind.startCue, Kind.endCue, silences, Tree.calls,
      Tree.callsOfList, within]
  rw [← cued]
  exact (turns_reports_cues named (told_of_constant _ _)).2

end WordStream.Body

import WordStream.Proofs.Body.EmbeddedObject
import WordStream.Proofs.Body.Place

/-!
# Views of a translation

A view reads a part of a translation that goes on by itself: what it reads after an element begins or ends
is settled by what it read before. Over a tree the view is then a fold over the elements outside skipped
branches, and what holds of one element holds of the whole by one induction.
-/

set_option autoImplicit false

namespace WordStream.Body

open Markup (Attributes Call Place Tree)

variable {context : Context} {Value : Type}

theorem gated_call_start {session : Session} {tag : String} {kind : Kind} (policy : Policy)
    (attributes : Attributes) (found : Kind.ofTag? tag = some kind)
    (shown : kind.skipped context = false) (ungated : session.state.gated context = false) :
    (session.call context policy (.start tag attributes)).state.gated context = false := by
  have gate : (session.call context policy (.start tag attributes)).state.gated context =
      (session.state.gated context || kind.skipped context) := receive_start_gated attributes found
  rw [gate, ungated, shown]
  rfl

/-! ## Elements that a tree mentions -/

/-- A content element by its tag and its attributes. -/
abbrev Mention := Tag × Attributes

def Kind.mention (select : List Kind → Tag → Bool) (ancestors : List Kind)
    (attributes : Attributes) : Kind → List Mention
  | .content tag => if select ancestors tag then [(tag, attributes)] else []
  | .branch _ | .other => []

mutual

/-- The selected content elements outside skipped branches, in document order. -/
def mentions (context : Context) (select : List Kind → Tag → Bool) (ancestors : List Kind) :
    Tree → List Mention
  | .element tag attributes children =>
      match Kind.ofTag? tag with
      | some kind =>
          if kind.skipped context then []
          else
            kind.mention select ancestors attributes ++
              mentionsOfList context select (kind :: ancestors) children
      | none => []
  | .text _ => []

def mentionsOfList (context : Context) (select : List Kind → Tag → Bool) (ancestors : List Kind) :
    List Tree → List Mention
  | [] => []
  | tree :: trees =>
      mentions context select ancestors tree ++ mentionsOfList context select ancestors trees

end

/-! ## Views -/

/-- A reading of the state and the reported events that goes on by itself, under the policies it
allows. -/
structure View (context : Context) (Value : Type) where
  read : State → List Event → Value
  opens : Attributes → Kind → Value → Value
  closes : Kind → Value → Value
  texts : String → Value → Value
  allows : Policy → Prop
  read_start : ∀ state events attributes kind,
    let outcome := startKind context attributes { state with paragraphPending := false } kind
    read outcome.state (events ++ (state.announcement kind ++ outcome.events)) =
      opens attributes kind (read state events)
  read_finish : ∀ state events kind,
    let outcome := finishKind context state kind
    read outcome.state (events ++ outcome.events) = closes kind (read state events)
  read_text : ∀ policy state events content, allows policy →
    read (if keepsContent policy state content then state.write content else state) events =
      texts content (read state events)

namespace View

def of (view : View context Value) (session : Session) : Value :=
  view.read session.state session.events.toList

mutual

/-- What a view reads after a tree, by what it read before. -/
def through (view : View context Value) : Tree → Value → Value
  | .element tag attributes children, value =>
      match Kind.ofTag? tag with
      | some kind =>
          if kind.skipped context then value
          else view.closes kind (throughList view children (view.opens attributes kind value))
      | none => value
  | .text content, value => view.texts content value

def throughList (view : View context Value) : List Tree → Value → Value
  | [], value => value
  | tree :: trees, value => throughList view trees (through view tree value)

end

variable {view : View context Value} {session : Session} {policy : Policy}

theorem throughList_append (former latter : List Tree) (value : Value) :
    view.throughList (former ++ latter) value =
      view.throughList latter (view.throughList former value) := by
  induction former generalizing value with
  | nil => rw [throughList, List.nil_append]
  | cons tree trees ih => rw [List.cons_append, throughList, throughList, ih]

theorem through_element {tag : String} {kind : Kind} {attributes : Attributes}
    {children : List Tree} {value : Value} (found : Kind.ofTag? tag = some kind)
    (shown : kind.skipped context = false) :
    view.through (.element tag attributes children) value =
      view.closes kind (view.throughList children (view.opens attributes kind value)) := by
  simp only [through, found, shown, Bool.false_eq_true, if_false]

theorem of_start {tag : String} {kind : Kind} {attributes : Attributes}
    (found : Kind.ofTag? tag = some kind) (shown : kind.skipped context = false)
    (ungated : session.state.gated context = false) :
    view.of (session.call context policy (.start tag attributes)) =
      view.opens attributes kind (view.of session) := by
  have read := view.read_start session.state session.events.toList attributes kind
  simp only [of, Session.call, Session.take, receive_start attributes found shown ungated,
    Array.toList_appendList]
  exact read

theorem of_finish {tag : String} {kind : Kind} (found : Kind.ofTag? tag = some kind)
    (ungated : session.state.gated context = false) :
    view.of (session.call context policy (.finish tag)) = view.closes kind (view.of session) := by
  have read := view.read_finish session.state session.events.toList kind
  simp only [of, Session.call, Session.take, receive_finish found ungated,
    Array.toList_appendList]
  exact read

theorem of_data {content : String} (allowed : view.allows policy)
    (ungated : session.state.gated context = false) :
    view.of (session.call context policy (.data content)) =
      view.texts content (view.of session) := by
  have read := view.read_text policy session.state session.events.toList content allowed
  simp only [of, Session.call, Session.take, receive_data content ungated,
    Array.toList_appendList, List.append_nil]
  exact read

mutual

theorem of_turns :
    ∀ {tree : Tree} {session : Session} {turns : List Turn},
      session.state.gated context = false → tree.all Tree.isNamed = true →
        (∀ turn ∈ turns, view.allows turn.1) → turns.map Prod.snd = tree.calls →
          view.of (session.turns context turns) = view.through tree (view.of session)
  | .text content, session, turns, ungated, _, allowed, told => by
      obtain ⟨policy, rfl⟩ := turns_of_text told
      have permitted : view.allows policy := allowed _ List.mem_cons_self
      rw [Session.turns_cons, Session.turns_nil, of_data permitted ungated, through]
  | .element tag attributes children, session, turns, ungated, named, allowed, told => by
      rw [Tree.all, Bool.and_eq_true] at named
      obtain ⟨kind, found⟩ := Kind.exists_ofTag? named.1
      cases skipped : kind.skipped context with
      | true =>
          -- A view sees the state and the events only, and a skipped branch leaves both as they were.
          obtain ⟨state, events, _⟩ :=
            carries_of_skipped found skipped named.2 session turns rfl told
          have same : session.events ++ ([] : List Event) = session.events := by
            apply Array.ext'
            simp
          rw [of, state, events, same]
          simp only [through, found, skipped, if_true]
          rfl
      | false =>
          obtain ⟨first, last, inner, rfl, inside⟩ := turns_of_element told
          have opened := gated_call_start first attributes found skipped ungated
          have filled := (turnsList_gated named.2 inside).trans opened
          have innerAllowed : ∀ turn ∈ inner, view.allows turn.1 := by
            intro turn member
            exact allowed turn (.tail _ (List.mem_append_left _ member))
          have read := of_turnsList opened named.2 innerAllowed inside
          rw [Session.turns_cons, Session.turns_append, Session.turns_cons, Session.turns_nil,
            of_finish found filled, read, of_start found skipped ungated,
            through_element found skipped]

theorem of_turnsList :
    ∀ {trees : List Tree} {session : Session} {turns : List Turn},
      session.state.gated context = false → Tree.allOfList Tree.isNamed trees = true →
        (∀ turn ∈ turns, view.allows turn.1) → turns.map Prod.snd = Tree.callsOfList trees →
          view.of (session.turns context turns) = view.throughList trees (view.of session)
  | [], session, turns, _, _, _, told => by
      rw [List.map_eq_nil_iff.1 told, Session.turns_nil, throughList]
  | tree :: trees, session, turns, ungated, named, allowed, told => by
      rw [Tree.allOfList, Bool.and_eq_true] at named
      obtain ⟨former, latter, rfl, formerTold, latterTold⟩ := turns_of_cons told
      have formerAllowed : ∀ turn ∈ former, view.allows turn.1 :=
        fun turn member => allowed turn (List.mem_append_left _ member)
      have latterAllowed : ∀ turn ∈ latter, view.allows turn.1 :=
        fun turn member => allowed turn (List.mem_append_right _ member)
      have remains := (turns_gated named.1 formerTold).trans ungated
      rw [Session.turns_append, of_turnsList remains named.2 latterAllowed latterTold,
        of_turns ungated named.1 formerAllowed formerTold, throughList]

end

/-! ## From one element to a tree -/

/-- A relation between what a view reads before and after, and the elements mentioned between, that
the elements of a tree hand on to the whole. -/
structure Traces (view : View context Value) (grammar : Grammar)
    (select : List Kind → Tag → Bool)
    (relation : List Kind → Value → List Mention → Value → Prop) : Prop where
  nil : ∀ ancestors value, relation ancestors value [] value
  append : ∀ ancestors first middle last former latter, relation ancestors first former middle →
    relation ancestors middle latter last → relation ancestors first (former ++ latter) last
  text : ∀ ancestors value content, relation ancestors value [] (view.texts content value)
  element : ∀ ancestors attributes kind value inner mentioned, grammar ancestors kind = true →
    kind.skipped context = false →
      relation (kind :: ancestors) (view.opens attributes kind value) mentioned inner →
        relation ancestors value (kind.mention select ancestors attributes ++ mentioned)
          (view.closes kind inner)

namespace Traces

variable {grammar : Grammar} {select : List Kind → Tag → Bool}
  {relation : List Kind → Value → List Mention → Value → Prop}

mutual

theorem through (traces : Traces view grammar select relation) :
    ∀ {tree : Tree} {ancestors : List Kind} (value : Value),
      follows context grammar ancestors tree = true →
        relation ancestors value (mentions context select ancestors tree)
          (view.through tree value)
  | .text content, ancestors, value, _ => by
      rw [mentions, View.through]
      exact traces.text ancestors value content
  | .element tag attributes children, ancestors, value, following => by
      cases found : Kind.ofTag? tag with
      | none =>
          simp only [mentions, View.through, found]
          exact traces.nil ancestors value
      | some kind =>
          cases skipped : kind.skipped context with
          | true =>
              simp only [mentions, View.through, found, skipped, if_true]
              exact traces.nil ancestors value
          | false =>
              rw [follows_element found skipped, Bool.and_eq_true] at following
              simp only [mentions, View.through, found, skipped, Bool.false_eq_true, if_false]
              have inside := traces.throughList (view.opens attributes kind value) following.2
              exact traces.element _ _ _ _ _ _ following.1 skipped inside

theorem throughList (traces : Traces view grammar select relation) :
    ∀ {trees : List Tree} {ancestors : List Kind} (value : Value),
      followsOfList context grammar ancestors trees = true →
        relation ancestors value (mentionsOfList context select ancestors trees)
          (view.throughList trees value)
  | [], ancestors, value, _ => by
      rw [mentionsOfList, View.throughList]
      exact traces.nil ancestors value
  | tree :: trees, ancestors, value, following => by
      rw [followsOfList_cons, Bool.and_eq_true] at following
      rw [mentionsOfList, View.throughList]
      have first := traces.through value following.1
      have rest := traces.throughList (view.through tree value) following.2
      exact traces.append _ _ _ _ _ _ first rest

end

end Traces

/-- An invariant by the open elements that every element keeps. At the end of an element it held already
when the element began. -/
structure Keeps (view : View context Value) (grammar : Grammar)
    (invariant : List Kind → Value → Prop) : Prop where
  opens : ∀ ancestors attributes kind value, grammar ancestors kind = true →
    kind.skipped context = false → invariant ancestors value →
      invariant (kind :: ancestors) (view.opens attributes kind value)
  closes : ∀ ancestors kind before value, grammar ancestors kind = true →
    invariant ancestors before → invariant (kind :: ancestors) value →
      invariant ancestors (view.closes kind value)
  texts : ∀ ancestors content value, invariant ancestors value →
    invariant ancestors (view.texts content value)

namespace Keeps

variable {grammar : Grammar} {invariant : List Kind → Value → Prop}

theorem traces (keeps : Keeps view grammar invariant) :
    Traces view grammar (fun _ _ => false)
      (fun ancestors before _ after => invariant ancestors before → invariant ancestors after) where
  nil _ _ held := held
  append _ _ _ _ _ _ first rest held := rest (first held)
  text _ _ _ held := keeps.texts _ _ _ held
  element _ _ _ _ _ _ allowed shown inside held :=
    keeps.closes _ _ _ _ allowed held (inside (keeps.opens _ _ _ _ allowed shown held))

theorem throughList (keeps : Keeps view grammar invariant) {trees : List Tree}
    {ancestors : List Kind} {value : Value}
    (following : followsOfList context grammar ancestors trees = true)
    (held : invariant ancestors value) : invariant ancestors (view.throughList trees value) :=
  keeps.traces.throughList value following held

end Keeps

end View

/-! ## At a place -/

/-- What comes before a place inside an element is what comes before the element, its start and its former
children. -/
theorem exists_told_inside {outer : Place} {tag : String} {attributes : Attributes}
    {former latter : List Tree} {tree : Tree} {turns : List Turn}
    (named : ((Place.inside outer tag attributes former latter).fill tree).all Tree.isNamed = true)
    (shown : isShown context (.inside outer tag attributes former latter) = true)
    (told : turns.map Prod.snd = (Place.inside outer tag attributes former latter).before) :
    ∃ (kind : Kind) (policy : Policy) (around siblings : List Turn),
      turns = around ++ (policy, .start tag attributes) :: siblings ∧
        Kind.ofTag? tag = some kind ∧ kind.skipped context = false ∧ isShown context outer = true ∧
          Tree.allOfList Tree.isNamed former = true ∧ around.map Prod.snd = outer.before ∧
            siblings.map Prod.snd = Tree.callsOfList former := by
  have here := Place.all_of_fill outer named
  rw [Tree.all, Bool.and_eq_true, Tree.allOfList_append, Bool.and_eq_true] at here
  obtain ⟨kind, found⟩ := Kind.exists_ofTag? here.1
  rw [isShown_inside found, Bool.and_eq_true, Bool.not_eq_true'] at shown
  obtain ⟨around, rest, rfl, aroundTold, restTold⟩ := List.map_eq_append_iff.1 told
  obtain ⟨⟨policy, _⟩, siblings, rfl, rfl, siblingsTold⟩ := List.map_eq_cons_iff.1 restTold
  exact ⟨kind, policy, around, siblings, rfl, found, shown.1, shown.2, here.2.1, aroundTold,
    siblingsTold⟩

theorem gated_at_place {tree : Tree} {turns : List Turn} (place : Place)
    (named : (place.fill tree).all Tree.isNamed = true) (shown : isShown context place = true)
    (told : turns.map Prod.snd = place.before) :
    (Session.turns context {} turns).state.gated context = false := by
  induction place generalizing tree turns with
  | root =>
      rw [List.map_eq_nil_iff.1 told]
      simp [State.gated]
  | inside outer tag attributes former latter ih =>
      obtain ⟨kind, policy, around, siblings, rfl, found, plain, outerShown, formerNamed,
        aroundTold, siblingsTold⟩ := exists_told_inside named shown told
      have outside := ih named outerShown aroundTold
      have opened := gated_call_start policy attributes found plain outside
      rw [Session.turns_append, Session.turns_cons]
      exact (turnsList_gated formerNamed siblingsTold).trans opened

theorem View.Keeps.at_place {view : View context Value} {grammar : Grammar}
    {invariant : List Kind → Value → Prop} (keeps : view.Keeps grammar invariant)
    {tree : Tree} {turns : List Turn} (place : Place) (initial : invariant [] (view.of {}))
    (named : (place.fill tree).all Tree.isNamed = true) (shown : isShown context place = true)
    (following : follows context grammar [] (place.fill tree) = true)
    (allowed : ∀ turn ∈ turns, view.allows turn.1) (told : turns.map Prod.snd = place.before) :
    invariant (ancestorsOf place) (view.of (Session.turns context {} turns)) := by
  induction place generalizing tree turns with
  | root =>
      rw [List.map_eq_nil_iff.1 told]
      exact initial
  | inside outer tag attributes former latter ih =>
      obtain ⟨kind, policy, around, siblings, rfl, found, plain, outerShown, formerNamed,
        aroundTold, siblingsTold⟩ := exists_told_inside named shown told
      have ungated := gated_at_place outer named outerShown aroundTold
      have rule := follows_of_fill outer named outerShown following
      rw [follows_element found plain, followsOfList_append, Bool.and_eq_true,
        Bool.and_eq_true] at rule
      have outside := ih named outerShown following
        (fun turn member => allowed turn (List.mem_append_left _ member)) aroundTold
      have within := keeps.opens _ attributes _ _ rule.1 plain outside
      have opened := gated_call_start policy attributes found plain ungated
      rw [Session.turns_append, Session.turns_cons,
        of_turnsList opened formerNamed
          (fun turn member => allowed turn (List.mem_append_right _ (.tail _ member))) siblingsTold,
        of_start found plain ungated, ancestorsOf_inside found]
      exact keeps.throughList rule.2.1 within

end WordStream.Body

import WordStream.Proofs.Body.Effect

/-!
# What a tree leaves as it was

A text adds to the run in the making at most. The counters of open branches depend on the tags alone,
so that a tree, whatever it holds, leaves them as it found them, and with them the gate. Of the flags,
an element sets and clears its own.
-/

set_option autoImplicit false

namespace WordStream.Body

open Markup (Attributes Call Tree)

variable {context : Context} {policy : Policy} {state : State}

/-! ## Text -/

/-- Whether a text is added to the run in the making. -/
def State.takes (context : Context) (policy : Policy) (state : State) (content : String) : Bool :=
  !state.gated context && keepsContent policy state content

theorem receive_data_taken (content : String) :
    receive context policy state (.data content) =
      { state :=
          if state.takes context policy content then state.write content else state } := by
  cases gated : state.gated context with
  | true =>
      simp only [receive, Signal.ofCall?]
      split <;> simp [step, gated, State.takes]
  | false =>
      rw [receive_data content gated]
      simp only [State.takes, gated, Bool.not_false, Bool.true_and]

theorem Session.call_data (session : Session) (content : String) :
    session.call context policy (.data content) =
      { session with
        state :=
          if session.state.takes context policy content then session.state.write content
          else session.state } := by
  simp [Session.call, Session.take, Session.begun, receive_data_taken]

/-! ## The counters after one call -/

def State.depths (state : State) : Nat × Nat :=
  (state.choiceDepth, state.fallbackDepth)

theorem State.gated_congr {first second : State} (same : first.depths = second.depths) :
    first.gated context = second.gated context := by
  obtain ⟨choices, fallbacks⟩ := Prod.mk.inj same
  unfold State.gated
  rw [choices, fallbacks]

theorem State.counting_depths {first second : State} (same : first.depths = second.depths)
    (kind : Kind) : (first.counting kind).depths = (second.counting kind).depths := by
  obtain ⟨choices, fallbacks⟩ := Prod.mk.inj same
  cases kind with
  | branch branch =>
      cases branch <;>
        simp only [State.counting, State.openBranch, State.depths, choices, fallbacks]
  | content tag => exact same
  | other => exact same

theorem State.discounting_depths {first second : State} (same : first.depths = second.depths)
    (kind : Kind) : (first.discounting kind).depths = (second.discounting kind).depths := by
  obtain ⟨choices, fallbacks⟩ := Prod.mk.inj same
  cases kind with
  | branch branch =>
      cases branch <;>
        simp only [State.discounting, State.closeBranch, State.depths, choices, fallbacks]
  | content tag => exact same
  | other => exact same

@[simp]
theorem State.discounting_counting (state : State) (kind : Kind) :
    (state.counting kind).discounting kind = state := by
  cases kind with
  | branch branch => exact state.closeBranch_openBranch branch
  | content tag => rfl
  | other => rfl

theorem startKind_depths (attributes : Attributes) (state : State) (kind : Kind) :
    (startKind context attributes state kind).state.depths = (state.counting kind).depths := by
  rw [state_startKind]
  rfl

theorem startKind_depths_announced (attributes : Attributes) (state : State) (kind : Kind) :
    (startKind context attributes { state with paragraphPending := false } kind).state.depths =
      (state.counting kind).depths := by
  have announced : ({ state with paragraphPending := false } : State).depths = state.depths := rfl
  exact (startKind_depths attributes _ kind).trans (State.counting_depths announced kind)

theorem finishKind_depths (state : State) (kind : Kind) :
    (finishKind context state kind).state.depths = (state.discounting kind).depths := by
  rw [state_finishKind]
  rfl

/-- Behind the gate the end of an element is counted and nothing else. -/
theorem finish_of_gated {space : Option String} {name : String}
    (gated : state.gated context = true) :
    finish context state space name = { state := state.discounting (Kind.of space name) } := by
  unfold finish Kind.of
  cases Branch.of? space name with
  | some branch => rfl
  | none => cases Tag.ofName? name <;> simp [gated, State.discounting]

theorem receive_finish_behind {tag : String} {kind : Kind} (found : Kind.ofTag? tag = some kind)
    (gated : state.gated context = true) :
    receive context policy state (.finish tag) = { state := state.discounting kind } := by
  obtain ⟨space, name, rfl, _, finished⟩ := Kind.parts_of_ofTag? found
  simp only [receive, finished, step]
  exact finish_of_gated gated

theorem receive_start_depths {tag : String} {kind : Kind} (attributes : Attributes)
    (found : Kind.ofTag? tag = some kind) :
    (receive context policy state (.start tag attributes)).state.depths =
      (state.counting kind).depths := by
  cases hidden : (state.counting kind).gated context with
  | true => rw [receive_start_of_gated attributes found hidden]
  | false =>
      rw [State.gated_counting, Bool.or_eq_false_iff] at hidden
      rw [receive_start attributes found hidden.2 hidden.1]
      exact startKind_depths_announced attributes state kind

theorem receive_start_gated {tag : String} {kind : Kind} (attributes : Attributes)
    (found : Kind.ofTag? tag = some kind) :
    (receive context policy state (.start tag attributes)).state.gated context =
      (state.gated context || kind.skipped context) := by
  rw [State.gated_congr (receive_start_depths attributes found), State.gated_counting]

theorem receive_finish_depths {tag : String} {kind : Kind} (found : Kind.ofTag? tag = some kind) :
    (receive context policy state (.finish tag)).state.depths =
      (state.discounting kind).depths := by
  cases hidden : state.gated context with
  | true => rw [receive_finish_behind found hidden]
  | false =>
      rw [receive_finish found hidden]
      exact finishKind_depths state kind

theorem receive_data_depths (content : String) :
    (receive context policy state (.data content)).state.depths = state.depths := by
  rw [receive_data_taken]
  cases state.takes context policy content <;> rfl

theorem state_call_start {session : Session} {tag : String} {kind : Kind}
    (attributes : Attributes) (found : Kind.ofTag? tag = some kind)
    (shown : kind.skipped context = false) (ungated : session.state.gated context = false) :
    (session.call context policy (.start tag attributes)).state =
      (startKind context attributes { session.state with paragraphPending := false } kind).state := by
  simp only [Session.call, Session.take, receive_start attributes found shown ungated]

theorem state_call_finish {session : Session} {tag : String} {kind : Kind}
    (found : Kind.ofTag? tag = some kind) (ungated : session.state.gated context = false) :
    (session.call context policy (.finish tag)).state =
      (finishKind context session.state kind).state := by
  simp only [Session.call, Session.take, receive_finish found ungated]

/-! ## The counters after a tree -/

mutual

/-- A tree opens and closes the same branches, wherever it stands. -/
theorem turns_depths :
    ∀ {tree : Tree} {session : Session} {turns : List Turn}, tree.all Tree.isNamed = true →
      turns.map Prod.snd = tree.calls →
        (session.turns context turns).state.depths = session.state.depths
  | .text content, session, turns, _, told => by
      obtain ⟨policy, rfl⟩ := turns_of_text told
      exact receive_data_depths content
  | .element tag attributes children, session, turns, named, told => by
      rw [Tree.all, Bool.and_eq_true] at named
      obtain ⟨kind, found⟩ := Kind.exists_ofTag? named.1
      obtain ⟨first, last, inner, rfl, inside⟩ := turns_of_element told
      rw [Session.turns_cons, Session.turns_append]
      have opened : (session.call context first (.start tag attributes)).state.depths =
          (session.state.counting kind).depths := receive_start_depths attributes found
      have filled : (Session.turns context (session.call context first (.start tag attributes))
          inner).state.depths = (session.call context first (.start tag attributes)).state.depths :=
        turnsList_depths named.2 inside
      calc
        _ = State.depths (State.discounting _ kind) := receive_finish_depths found
        _ = ((session.state.counting kind).discounting kind).depths :=
            State.discounting_depths (filled.trans opened) kind
        _ = session.state.depths := by rw [State.discounting_counting]

theorem turnsList_depths :
    ∀ {trees : List Tree} {session : Session} {turns : List Turn},
      Tree.allOfList Tree.isNamed trees = true → turns.map Prod.snd = Tree.callsOfList trees →
        (session.turns context turns).state.depths = session.state.depths
  | [], session, turns, _, told => by rw [List.map_eq_nil_iff.1 told, Session.turns_nil]
  | tree :: trees, session, turns, named, told => by
      rw [Tree.allOfList, Bool.and_eq_true] at named
      obtain ⟨former, latter, rfl, formerTold, latterTold⟩ := turns_of_cons told
      rw [Session.turns_append, turnsList_depths named.2 latterTold,
        turns_depths named.1 formerTold]

end

/-- The gate is the same before and after every tree. -/
theorem turns_gated {tree : Tree} {session : Session} {turns : List Turn}
    (named : tree.all Tree.isNamed = true) (told : turns.map Prod.snd = tree.calls) :
    (session.turns context turns).state.gated context = session.state.gated context :=
  State.gated_congr (turns_depths named told)

theorem turnsList_gated {trees : List Tree} {session : Session} {turns : List Turn}
    (named : Tree.allOfList Tree.isNamed trees = true)
    (told : turns.map Prod.snd = Tree.callsOfList trees) :
    (session.turns context turns).state.gated context = session.state.gated context :=
  State.gated_congr (turnsList_depths named told)

theorem calls_gated {tree : Tree} {session : Session} (named : tree.all Tree.isNamed = true) :
    (session.calls context policy tree.calls).state.gated context = session.state.gated context := by
  rw [Session.calls_eq_turns]
  exact turns_gated named (told_of_constant policy tree.calls)

/-! ## The flags that text depends on -/

theorem startKind_flags (attributes : Attributes) (state : State) (kind : Kind) :
    (startKind context attributes state kind).state.inText =
        (kind == .content .text || state.inText) ∧
      (startKind context attributes state kind).state.edit = kind.editWithin state.edit := by
  rw [state_startKind]
  exact ⟨rfl, rfl⟩

theorem finishKind_flags (state : State) (kind : Kind) :
    (finishKind context state kind).state.inText = (kind != .content .text && state.inText) ∧
      (finishKind context state kind).state.edit = kind.editAfter state.edit := by
  rw [state_finishKind]
  exact ⟨rfl, rfl⟩

end WordStream.Body

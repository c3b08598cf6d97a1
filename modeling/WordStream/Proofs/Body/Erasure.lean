import WordStream.Proofs.Body.Element

/-!
# Erasing alternate content

The gate is erasure. A translation of a tree does what a translation of the erased tree does, in
which skipped branches are gone and the branches that are read stand as elements of no meaning.
The two differ meanwhile only in the number of open fallback branches.
-/

set_option autoImplicit false

namespace WordStream

open Markup (Attributes Call Tree)

mutual

/-- A tree without its skipped branches. The tag of a branch that is read gives way to another. -/
def Markup.Tree.erase (context : Body.Context) (replacement : String) : Tree → List Tree
  | .element tag attributes children =>
      match Body.Kind.ofTag? tag with
      | some (.branch .choice) => []
      | some (.branch .fallback) =>
          if context.skipFallback then []
          else [.element replacement attributes (Tree.eraseList context replacement children)]
      | _ => [.element tag attributes (Tree.eraseList context replacement children)]
  | .text content => [.text content]

def Markup.Tree.eraseList (context : Body.Context) (replacement : String) : List Tree → List Tree
  | [] => []
  | tree :: trees => tree.erase context replacement ++ Tree.eraseList context replacement trees

end

namespace Body

variable {context : Context} {sink : Array Event → Policy} {replacement : String}

/-- A session over a tree beside one over the erased tree, inside as many branches that are read
as told. -/
structure Session.Agrees (context : Context) (depth : Nat) (whole erased : Session) : Prop where
  state : whole.state = erased.state.withDepths 0 depth
  outside : erased.state = erased.state.withDepths 0 0
  shown : context.skipFallback = true → depth = 0
  events : whole.events = erased.events
  badName : whole.badName = erased.badName

namespace Session.Agrees

variable {depth : Nat} {whole erased : Session}

theorem ungated (agrees : Agrees context depth whole erased) :
    whole.state.gated context = false ∧ erased.state.gated context = false := by
  constructor
  · rw [agrees.state]
    cases skips : context.skipFallback with
    | true => simp [State.gated, State.withDepths, skips, agrees.shown skips]
    | false => simp [State.gated, State.withDepths, skips]
  · rw [agrees.outside]
    simp [State.gated, State.withDepths]

/-- Calls with the same outcome but for the counters keep two sessions in agreement. -/
theorem call {policy : Policy} {wholeCall erasedCall : Call} {after : Nat}
    (agrees : Agrees context depth whole erased)
    (received : receive context policy whole.state wholeCall =
      (receive context policy erased.state erasedCall).withDepths 0 after)
    (outside : receive context policy erased.state erasedCall =
      (receive context policy erased.state erasedCall).withDepths 0 0)
    (shown : context.skipFallback = true → after = 0) :
    Agrees context after (whole.call context policy wholeCall)
      (erased.call context policy erasedCall) where
  state := congrArg Outcome.state received
  outside := congrArg Outcome.state outside
  shown := shown
  events := by
    have same := congrArg Outcome.events received
    simp only [Session.call, Session.take, agrees.events, same]
    rfl
  badName := by
    have same := congrArg Outcome.badName received
    simp only [Session.call, Session.take, agrees.badName, same]
    rfl

theorem call_plain {policy : Policy} {call : Call} (agrees : Agrees context depth whole erased)
    (framed : ∀ choices fallbacks,
      (erased.state.withDepths choices fallbacks).gated context = false →
        receive context policy (erased.state.withDepths choices fallbacks) call =
          (receive context policy erased.state call).withDepths choices fallbacks) :
    Agrees context depth (whole.call context policy call) (erased.call context policy call) := by
  obtain ⟨wholeUngated, ungated⟩ := agrees.ungated
  refine agrees.call ?_ ?_ agrees.shown
  · rw [agrees.state] at wholeUngated ⊢
    exact framed 0 depth wholeUngated
  · have outside := agrees.outside ▸ ungated
    rw [← framed 0 0 outside, ← agrees.outside]

theorem start_fallback {policy : Policy} {tag : String} (attributes : Attributes)
    (found : Kind.ofTag? tag = some (.branch .fallback)) (reads : context.skipFallback = false)
    (unknown : Kind.ofTag? replacement = some .other)
    (agrees : Agrees context depth whole erased) :
    Agrees context (depth + 1) (whole.call context policy (.start tag attributes))
      (erased.call context policy (.start replacement attributes)) := by
  obtain ⟨wholeUngated, ungated⟩ := agrees.ungated
  have same : receive context policy erased.state (.start replacement attributes) = _ :=
    receive_start attributes unknown rfl ungated
  refine agrees.call ?_ ?_ (fun skips => by simp [reads] at skips)
  · rw [same, receive_start attributes found reads wholeUngated, agrees.state]
    rfl
  · rw [same, agrees.outside]
    rfl

theorem finish_fallback {policy : Policy} {tag : String}
    (found : Kind.ofTag? tag = some (.branch .fallback)) (reads : context.skipFallback = false)
    (unknown : Kind.ofTag? replacement = some .other)
    (agrees : Agrees context (depth + 1) whole erased) :
    Agrees context depth (whole.call context policy (.finish tag))
      (erased.call context policy (.finish replacement)) := by
  obtain ⟨wholeUngated, ungated⟩ := agrees.ungated
  have same : receive context policy erased.state (.finish replacement) = { state := erased.state } :=
    receive_finish unknown ungated
  refine agrees.call ?_ ?_ (fun skips => by simp [reads] at skips)
  · rw [same, receive_finish found wholeUngated, agrees.state]
    rfl
  · rw [same, agrees.outside]
    rfl

theorem idle {sequence : List Call} (agrees : Agrees context depth whole erased)
    (carries : Carries context whole.state sequence whole.state []) :
    Agrees context depth (whole.tell context sink sequence) erased := by
  obtain ⟨turns, told, same⟩ := whole.exists_turns_eq_tell context sink sequence
  obtain ⟨state, events, badName⟩ := carries whole turns rfl told
  rw [same]
  exact {
    state := state.trans agrees.state
    outside := agrees.outside
    shown := agrees.shown
    events := by rw [events, ← agrees.events]; simp
    badName := badName.trans agrees.badName }

/-- Two elements keep sessions in agreement if their ends and their children do. The children may
stand inside another number of branches. -/
theorem tell_element {tag other : String} {attributes : Attributes} {children others : List Tree}
    {inner : Nat}
    (opens : ∀ policy, Agrees context inner (whole.call context policy (.start tag attributes))
      (erased.call context policy (.start other attributes)))
    (inside : ∀ {whole erased : Session}, Agrees context inner whole erased →
      Agrees context inner (whole.tell context sink (Tree.callsOfList children))
        (erased.tell context sink (Tree.callsOfList others)))
    (closes : ∀ {whole erased : Session} policy, Agrees context inner whole erased →
      Agrees context depth (whole.call context policy (.finish tag))
        (erased.call context policy (.finish other)))
    (agrees : Agrees context depth whole erased) :
    Agrees context depth (whole.tell context sink (Tree.element tag attributes children).calls)
      (erased.tell context sink (Tree.callsOfList [.element other attributes others])) := by
  have opened := opens (sink whole.events)
  have filled := inside opened
  have closed := closes (sink (Session.tell context sink
    (whole.call context (sink whole.events) (.start tag attributes))
      (Tree.callsOfList children)).events) filled
  simp only [Tree.callsOfList, Tree.calls, List.append_nil, Session.tell_cons, Session.tell_append,
    Session.tell_nil]
  -- The sinks of both sessions were told the same events, so they settle the same policies.
  rwa [filled.events, agrees.events] at closed ⊢

mutual

theorem tell_erase (unknown : Kind.ofTag? replacement = some .other) :
    ∀ {tree : Tree} {depth : Nat} {whole erased : Session}, tree.all Tree.isNamed = true →
      Agrees context depth whole erased →
        Agrees context depth (whole.tell context sink tree.calls)
          (erased.tell context sink (Tree.callsOfList (tree.erase context replacement)))
  | .text content, depth, whole, erased, _, agrees => by
      have next : Agrees context depth
          (whole.call context (sink erased.events) (.data content))
          (erased.call context (sink erased.events) (.data content)) :=
        agrees.call_plain fun _ _ remains =>
          receive_data_withDepths content agrees.ungated.2 remains
      simpa [Tree.erase, Tree.calls, Tree.callsOfList, agrees.events] using next
  | .element tag attributes children, depth, whole, erased, named, agrees => by
      rw [Tree.all, Bool.and_eq_true] at named
      obtain ⟨kind, found⟩ := Kind.exists_ofTag? named.1
      have plainElement : (∀ branch, kind ≠ .branch branch) →
          Agrees context depth
            (whole.tell context sink (Tree.element tag attributes children).calls)
            (erased.tell context sink (Tree.callsOfList
              [.element tag attributes (Tree.eraseList context replacement children)])) :=
        fun plain => agrees.tell_element
          (fun _ => agrees.call_plain fun _ _ remains =>
            receive_start_withDepths attributes found plain agrees.ungated.2 remains)
          (tellList_erase unknown named.2)
          (fun _ inside => inside.call_plain fun _ _ remains =>
            receive_finish_withDepths found plain inside.ungated.2 remains)
      rw [Tree.erase, found]
      cases kind with
      | branch branch =>
          cases branch with
          | choice => exact agrees.idle (carries_of_skipped found rfl named.2)
          | fallback =>
              cases reads : context.skipFallback with
              | true =>
                  simpa [reads, Tree.callsOfList] using
                    agrees.idle (carries_of_skipped found reads named.2)
              | false =>
                  simpa [reads] using agrees.tell_element
                    (fun _ => agrees.start_fallback attributes found reads unknown)
                    (tellList_erase unknown named.2)
                    (fun _ inside => inside.finish_fallback found reads unknown)
      | content content => exact plainElement (by simp)
      | other => exact plainElement (by simp)

theorem tellList_erase (unknown : Kind.ofTag? replacement = some .other) :
    ∀ {trees : List Tree} {depth : Nat} {whole erased : Session},
      Tree.allOfList Tree.isNamed trees = true → Agrees context depth whole erased →
        Agrees context depth (whole.tell context sink (Tree.callsOfList trees))
          (erased.tell context sink (Tree.callsOfList (Tree.eraseList context replacement trees)))
  | [], _, _, _, _, agrees => agrees
  | tree :: trees, depth, whole, erased, named, agrees => by
      rw [Tree.allOfList, Bool.and_eq_true] at named
      rw [Tree.eraseList, Tree.callsOfList_append, Tree.callsOfList, Session.tell_append,
        Session.tell_append]
      exact tellList_erase unknown named.2 (tell_erase unknown named.1 agrees)

end

end Session.Agrees

/-- The gate is erasure, for sinks of every policy. From a state outside all branches a tree and the
erased tree end in the same state with the same events, and a skipped branch leaves the state as it
was, a pending paragraph included. -/
theorem tell_eq_tell_erased (context : Context) (sink : Array Event → Policy) (session : Session)
    (tree : Tree) (replacement : String) (named : tree.all Tree.isNamed = true)
    (unknown : Kind.ofTag? replacement = some .other) (choices : session.state.choiceDepth = 0)
    (fallbacks : session.state.fallbackDepth = 0) :
    let whole := session.tell context sink tree.calls
    let erased := session.tell context sink (Tree.callsOfList (tree.erase context replacement))
    whole.state = erased.state ∧ whole.events = erased.events ∧ whole.badName = erased.badName ∧
      (tree.erase context replacement = [] →
        whole.state = session.state ∧ whole.events = session.events) := by
  intro whole erased
  have outside := session.state.withDepths_self
  rw [choices, fallbacks] at outside
  have start : Session.Agrees context 0 session session :=
    { state := outside.symm, outside := outside.symm, shown := fun _ => rfl, events := rfl,
      badName := rfl }
  have agrees : Session.Agrees context 0 whole erased := start.tell_erase unknown named
  have sameState : whole.state = erased.state := agrees.state.trans agrees.outside.symm
  refine ⟨sameState, agrees.events, agrees.badName, ?_⟩
  intro nothing
  have same : erased = session := by simp [erased, nothing, Tree.callsOfList]
  rw [sameState, agrees.events, same]
  exact ⟨rfl, rfl⟩

def alternateRun : Tree :=
  wordElement .run []
    [branchElement .choice [wordElement .text [] [.text "new"]],
     branchElement .fallback [wordElement .text [] [.text "old"]]]

theorem tell_alternateRun :
    alternateRun.all Tree.isNamed = true ∧ Kind.ofTag? "version" = some .other ∧
      (({ state := { paragraphPending := true } } : Session).tell { skipFallback := false }
          (fun _ => {}) alternateRun.calls).events =
        (({ state := { paragraphPending := true } } : Session).tell { skipFallback := false }
          (fun _ => {})
          (Tree.callsOfList (alternateRun.erase { skipFallback := false } "version"))).events := by
  have named : alternateRun.all Tree.isNamed = true := by
    simp [alternateRun, wordElement, branchElement, Tree.all, Tree.allOfList, Tree.isNamed]
  have unknown : Kind.ofTag? "version" = some .other := by decide +kernel
  exact ⟨named, unknown, (tell_eq_tell_erased _ _ _ _ _ named unknown rfl rfl).2.1⟩

end Body

end WordStream

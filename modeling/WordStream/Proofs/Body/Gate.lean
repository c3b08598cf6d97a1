import Mathlib.Order.Bounds.Basic
import WordStream.Proofs.Body.Passage

/-!
# The gate on arbitrary signals

The counters of open branches are bounded below, so that they depend on more than how many branches were opened
and closed: a close that finds nothing open is forgotten. What is left open is the most that the last signals
opened beyond what they closed, wherever the count begins.
-/

set_option autoImplicit false

namespace WordStream.Body

open Markup (Attributes)

variable {context : Context} {policy : Policy} {state : State}

/-! ## What signals open and close -/

/-- What a signal adds to the open branches of a kind: one for a start, and minus one for an end. -/
def Signal.weight (branch : Branch) : Signal → Int
  | .start space name _ => if Branch.of? space name = some branch then 1 else 0
  | .finish space name => if Branch.of? space name = some branch then -1 else 0
  | .text _ | .blank _ => 0

/-- The branches of a kind that signals open, less those that they close. -/
def balance (branch : Branch) : List (Policy × Signal) → Int
  | [] => 0
  | (_, signal) :: rest => signal.weight branch + balance branch rest

theorem balance_append (branch : Branch) (former latter : List (Policy × Signal)) :
    balance branch (former ++ latter) = balance branch former + balance branch latter := by
  induction former with
  | nil => simp [balance]
  | cons turn rest ih =>
      obtain ⟨policy, signal⟩ := turn
      rw [List.cons_append, balance, balance, ih, Int.add_assoc]

/-- Whether some branch of a kind was opened that nothing has closed since. Its end would be the first one
after it that closes more than was opened since. -/
def LeavesOpen (branch : Branch) (sequence : List (Policy × Signal)) : Prop :=
  ∃ (before : List (Policy × Signal)) (policy : Policy) (signal : Signal)
    (after : List (Policy × Signal)),
    sequence = before ++ (policy, signal) :: after ∧ signal.weight branch = 1 ∧
      ∀ part, part <+: after → 0 ≤ balance branch part

/-! ## One signal -/

def State.depth (state : State) : Branch → Nat
  | .choice => state.choiceDepth
  | .fallback => state.fallbackDepth

theorem State.depth_congr {first second : State} (same : first.depths = second.depths)
    (branch : Branch) : first.depth branch = second.depth branch := by
  obtain ⟨choices, fallbacks⟩ := Prod.mk.inj same
  cases branch with
  | choice => exact choices
  | fallback => exact fallbacks

theorem State.gated_iff_depth :
    state.gated context = true ↔
      0 < state.depth .choice ∨ (context.skipFallback = true ∧ 0 < state.depth .fallback) :=
  State.gated_iff

theorem Kind.of_eq_branch {space : Option String} {name : String} {branch : Branch} :
    Kind.of space name = .branch branch ↔ Branch.of? space name = some branch := by
  unfold Kind.of
  cases Branch.of? space name with
  | some found => simp
  | none => cases Tag.ofName? name <;> simp

theorem State.depth_counting (state : State) (space : Option String) (name : String)
    (attributes : Attributes) (branch : Branch) :
    ((state.counting (Kind.of space name)).depth branch : Int) =
      max 0 (state.depth branch + (Signal.start space name attributes).weight branch) := by
  simp only [Signal.weight, ← Kind.of_eq_branch]
  cases Kind.of space name with
  | branch opened =>
      cases opened <;> cases branch <;>
        simp [State.counting, State.openBranch, State.depth] <;> omega
  | content tag | other => simp [State.counting]

theorem State.depth_discounting (state : State) (space : Option String) (name : String)
    (branch : Branch) :
    ((state.discounting (Kind.of space name)).depth branch : Int) =
      max 0 (state.depth branch + (Signal.finish space name).weight branch) := by
  simp only [Signal.weight, ← Kind.of_eq_branch]
  cases Kind.of space name with
  | branch closed =>
      cases closed <;> cases branch <;>
        simp [State.discounting, State.closeBranch, State.depth] <;> omega
  | content tag | other => simp [State.discounting]

theorem Signal.weight_of_tells {signal : Signal} {text : String} (branch : Branch)
    (tells : signal = .text text ∨ signal = .blank text) : signal.weight branch = 0 := by
  rcases tells with rfl | rfl <;> rfl

theorem Signal.weight_le (signal : Signal) (branch : Branch) : signal.weight branch ≤ 1 := by
  cases signal with
  | start space name attributes | finish space name =>
      rw [Signal.weight]
      split <;> omega
  | text | blank => exact Int.zero_le_ofNat 1

theorem Signal.finish_of_weight {signal : Signal} {branch : Branch}
    (closes : signal.weight branch = -1) :
    ∃ space name, signal = .finish space name ∧ Branch.of? space name = some branch := by
  cases signal with
  | start space name attributes =>
      rw [Signal.weight] at closes
      split at closes <;> cases closes
  | finish space name =>
      rw [Signal.weight] at closes
      split at closes
      · next found => exact ⟨space, name, rfl, found⟩
      · cases closes
  | text | blank => cases closes

/-- A signal adds what it weighs, but takes nothing away where nothing is open. -/
theorem step_depth (context : Context) (policy : Policy) (state : State) (signal : Signal)
    (branch : Branch) :
    ((step context policy state signal).state.depth branch : Int) =
      max 0 (state.depth branch + signal.weight branch) := by
  have passage := step_passage context policy state signal
  generalize step context policy state signal = outcome at passage
  cases passage with
  | counted attributes behind => exact state.depth_counting _ _ attributes branch
  | @opened space name attributes shown ungated =>
      rw [← state.depth_counting, State.depth_congr (startKind_depths_announced attributes state _)]
  | discounted behind => exact state.depth_discounting _ _ branch
  | @closed space name ungated =>
      rw [← state.depth_discounting, State.depth_congr (finishKind_depths state _)]
  | @kept _ text tells ungated =>
      have written : (state.write text).depth branch = state.depth branch := by cases branch <;> rfl
      rw [written, Signal.weight_of_tells branch tells, Int.add_zero]
      exact (max_eq_right (Int.natCast_nonneg _)).symm
  | dropped tells =>
      rw [Signal.weight_of_tells branch tells, Int.add_zero]
      exact (max_eq_right (Int.natCast_nonneg _)).symm

theorem step_of_closes {signal : Signal} {branch : Branch} (closes : signal.weight branch = -1) :
    ∃ choices fallbacks,
      step context policy state signal = { state := state.withDepths choices fallbacks } := by
  obtain ⟨space, name, rfl, found⟩ := Signal.finish_of_weight closes
  obtain ⟨choices, fallbacks, counted⟩ := state.exists_discounting (.branch branch)
  refine ⟨choices, fallbacks, ?_⟩
  rw [← counted, step, finish, found]
  rfl

theorem step_of_gated {signal : Signal}
    (gated : (step context policy state signal).state.gated context = true) :
    ∃ choices fallbacks,
      step context policy state signal = { state := state.withDepths choices fallbacks } := by
  have passage := step_passage context policy state signal
  generalize step context policy state signal = outcome at passage gated
  cases passage with
  | @counted space name attributes behind =>
      obtain ⟨choices, fallbacks, counted⟩ := state.exists_counting (Kind.of space name)
      exact ⟨choices, fallbacks, by rw [counted]⟩
  | @opened space name attributes shown ungated =>
      -- What is shown leaves the gate as it was.
      exfalso
      rw [State.gated_congr (startKind_depths_announced attributes state _), State.gated_counting,
        shown, ungated] at gated
      cases gated
  | @discounted space name behind =>
      obtain ⟨choices, fallbacks, counted⟩ := state.exists_discounting (Kind.of space name)
      exact ⟨choices, fallbacks, by rw [counted]⟩
  | @closed space name ungated =>
      cases kind : Kind.of space name with
      | branch branch =>
          obtain ⟨choices, fallbacks, counted⟩ := state.exists_discounting (.branch branch)
          exact ⟨choices, fallbacks, congrArg (fun state => ({ state } : Outcome)) counted⟩
      | content tag | other =>
          exfalso
          rw [kind, State.gated_congr (finishKind_depths state _)] at gated
          exact Bool.false_ne_true (ungated.symm.trans gated)
  | kept tells ungated => exact absurd (ungated.symm.trans gated) Bool.false_ne_true
  | dropped tells =>
      exact ⟨_, _, congrArg (fun state => ({ state } : Outcome)) state.withDepths_self.symm⟩

/-! ## Whole runs -/

theorem depth_add_balance_le (context : Context) (session : Session)
    (sequence : List (Policy × Signal)) (branch : Branch) :
    session.state.depth branch + balance branch sequence ≤
      (session.signals context sequence).state.depth branch := by
  induction sequence generalizing session with
  | nil => simp [balance]
  | cons turn rest ih =>
      obtain ⟨policy, signal⟩ := turn
      have first : ((session.signal context policy signal).state.depth branch : Int) =
          max 0 (session.state.depth branch + signal.weight branch) := step_depth _ _ _ _ _
      have later := ih (session.signal context policy signal)
      rw [Session.signals_cons, balance]
      omega

/-- Either nothing was forgotten, or the counter began anew after the last close that was. -/
theorem depth_signals (context : Context) (session : Session) (sequence : List (Policy × Signal))
    (branch : Branch) :
    ((session.signals context sequence).state.depth branch : Int) =
        session.state.depth branch + balance branch sequence ∨
      ∃ part, part <:+ sequence ∧
        balance branch part = (session.signals context sequence).state.depth branch := by
  induction sequence generalizing session with
  | nil => exact .inl (by simp [balance])
  | cons turn rest ih =>
      obtain ⟨policy, signal⟩ := turn
      have first : ((session.signal context policy signal).state.depth branch : Int) =
          max 0 (session.state.depth branch + signal.weight branch) := step_depth _ _ _ _ _
      rw [Session.signals_cons, balance]
      rcases ih (session.signal context policy signal) with whole | ⟨part, last, counted⟩
      · -- A close that is forgotten here leaves nothing open, so that the rest counts from zero.
        by_cases forgotten : (session.state.depth branch : Int) + signal.weight branch < 0
        · exact .inr ⟨rest, List.suffix_cons _ _, by omega⟩
        · exact .inl (by omega)
      · exact .inr ⟨part, last.trans (List.suffix_cons _ _), counted⟩

/-- From the start, a counter is the greatest balance of a last part. -/
theorem isGreatest_depth (context : Context) (sequence : List (Policy × Signal)) (branch : Branch) :
    IsGreatest {total | ∃ part, part <:+ sequence ∧ balance branch part = total}
      ((Session.signals context {} sequence).state.depth branch : Int) := by
  have closed : (({} : Session).state.depth branch : Int) = 0 := by cases branch <;> rfl
  constructor
  · rcases depth_signals context {} sequence branch with whole | found
    · exact ⟨sequence, List.suffix_rfl, by omega⟩
    · exact found
  · rintro total ⟨part, ⟨front, rfl⟩, rfl⟩
    have bounded := depth_add_balance_le context (Session.signals context {} front) part branch
    rw [Session.signals_append]
    omega

theorem leavesOpen_iff {branch : Branch} {sequence : List (Policy × Signal)} :
    LeavesOpen branch sequence ↔ ∃ part, part <:+ sequence ∧ 0 < balance branch part := by
  constructor
  · rintro ⟨before, policy, signal, after, rfl, opens, stays⟩
    refine ⟨(policy, signal) :: after, List.suffix_append _ _, ?_⟩
    have later := stays after List.prefix_rfl
    rw [balance, opens]
    omega
  · induction sequence with
    | nil =>
        rintro ⟨part, last, positive⟩
        rw [List.suffix_nil.1 last] at positive
        exact absurd positive (by simp [balance])
    | cons turn rest ih =>
        rintro ⟨part, last, positive⟩
        by_cases later : ∃ part, part <:+ rest ∧ 0 < balance branch part
        · obtain ⟨before, policy, signal, after, rfl, opens, stays⟩ := ih later
          exact ⟨turn :: before, policy, signal, after, rfl, opens, stays⟩
        · -- No later point will do, so that the first signal opens a branch and all is even after it.
          have even : ∀ part, part <:+ rest → balance branch part ≤ 0 := by
            intro part last
            by_contra more
            exact later ⟨part, last, by omega⟩
          obtain ⟨policy, signal⟩ := turn
          rcases List.suffix_cons_iff.1 last with rfl | inside
          · have restEven := even rest List.suffix_rfl
            rw [balance] at positive
            have light := signal.weight_le branch
            refine ⟨[], policy, signal, rest, rfl, by omega, ?_⟩
            rintro front ⟨back, rfl⟩
            have backEven := even back (List.suffix_append _ _)
            rw [balance_append] at positive
            omega
          · exact absurd (even part inside) (by omega)

/-- Whatever signals come, well nested or not, and whichever branches are skipped: a counter is the most that the
last signals opened beyond what they closed, and the gate is active if and only if a branch that is skipped was
left open. What comes while it is active, and the end of any branch, changes the counters alone and
reports nothing. -/
theorem signals_gate (context : Context) (sequence : List (Policy × Signal)) :
    let reached := (Session.signals context {} sequence).state
    (∀ branch, IsGreatest {total | ∃ part, part <:+ sequence ∧ balance branch part = total}
        (reached.depth branch : Int)) ∧
      (reached.gated context = true ↔
        LeavesOpen .choice sequence ∨
          (context.skipFallback = true ∧ LeavesOpen .fallback sequence)) ∧
        ∀ (policy : Policy) (signal : Signal),
          (step context policy reached signal).state.gated context = true ∨
              (∃ branch, signal.weight branch = -1) →
            ∃ choices fallbacks,
              step context policy reached signal =
                { state := reached.withDepths choices fallbacks } := by
  intro reached
  have greatest : ∀ branch, IsGreatest
      {total | ∃ part, part <:+ sequence ∧ balance branch part = total}
        (reached.depth branch : Int) := isGreatest_depth context sequence
  have opened : ∀ branch, 0 < reached.depth branch ↔ LeavesOpen branch sequence := by
    intro branch
    rw [leavesOpen_iff]
    constructor
    · intro positive
      obtain ⟨part, last, counted⟩ := (greatest branch).1
      exact ⟨part, last, by omega⟩
    · rintro ⟨part, last, positive⟩
      have bounded := (greatest branch).2 ⟨part, last, rfl⟩
      omega
  refine ⟨greatest, ?_, ?_⟩
  · rw [State.gated_iff_depth, opened, opened]
  · rintro policy signal (gated | ⟨branch, closes⟩)
    · exact step_of_gated gated
    · exact step_of_closes closes

/-- An end of a branch that was never opened, then a branch inside of which another one ends twice. -/
def surplusEnds : List (Policy × Signal) :=
  [({}, .finish (some compatibilitySpace) "Choice"),
   ({}, .start (some compatibilitySpace) "Choice" []),
   ({}, .start (some compatibilitySpace) "Fallback" []),
   ({}, .finish (some compatibilitySpace) "Fallback"),
   ({}, .finish (some compatibilitySpace) "Fallback")]

theorem signals_surplusEnds :
    let context : Context := { skipFallback := false }
    let reached := (Session.signals context {} surplusEnds).state
    reached.depth .choice = 1 ∧ reached.depth .fallback = 0 ∧ LeavesOpen .choice surplusEnds ∧
      (step context {} reached (.start none "tbl" [])).state.gated context = true ∧
        ∃ choices fallbacks, step context {} reached (.start none "tbl" []) =
          { state := reached.withDepths choices fallbacks } := by
  intro context reached
  obtain ⟨_, gate, silent⟩ := signals_gate context surplusEnds
  have active : reached.gated context = true := by decide +kernel
  have behind : (step context {} reached (.start none "tbl" [])).state.gated context = true := by
    decide +kernel
  have leaves : LeavesOpen .choice surplusEnds :=
    (gate.1 active).resolve_right fun skipped => Bool.false_ne_true skipped.1
  exact ⟨by decide +kernel, by decide +kernel, leaves, behind, silent {} _ (.inl behind)⟩

end WordStream.Body

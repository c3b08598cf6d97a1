import WordStream.Proofs.Body.Ancestry
import WordStream.Proofs.Body.Frame

/-!
# Places in a body

A place in a tree is told by the elements around it, each with its children before and after. A tree that
stands at a place is told between what comes before the place and what comes after. What stands where
is a matter of grammar, that is of an element and the open elements around it, and so is which flags are set.
-/

set_option autoImplicit false

namespace WordStream.Markup

namespace Tree

theorem allOfList_append (test : String → Attributes → Bool) (former latter : List Tree) :
    allOfList test (former ++ latter) = (allOfList test former && allOfList test latter) := by
  induction former with
  | nil => rfl
  | cons tree trees ih => rw [List.cons_append, allOfList, allOfList, ih, Bool.and_assoc]

end Tree

/-- A place in a tree, by the elements around it and their other children. -/
inductive Place where
  | root
  | inside (outer : Place) (tag : String) (attributes : Attributes) (former latter : List Tree)

namespace Place

/-- The whole that a tree at a place is part of. -/
def fill : Place → Tree → Tree
  | root, tree => tree
  | inside outer tag attributes former latter, tree =>
      outer.fill (.element tag attributes (former ++ tree :: latter))

def before : Place → List Call
  | root => []
  | inside outer tag attributes former _ =>
      outer.before ++ .start tag attributes :: Tree.callsOfList former

def after : Place → List Call
  | root => []
  | inside outer tag _ _ latter => Tree.callsOfList latter ++ .finish tag :: outer.after

theorem calls_fill (place : Place) (tree : Tree) :
    (place.fill tree).calls = place.before ++ (tree.calls ++ place.after) := by
  induction place generalizing tree with
  | root => simp [fill, before, after]
  | inside outer tag attributes former latter ih =>
      rw [fill, ih]
      simp [Tree.calls, Tree.callsOfList_append, Tree.callsOfList, before, after]

theorem all_of_fill {test : String → Attributes → Bool} {tree : Tree} (place : Place)
    (whole : (place.fill tree).all test = true) : tree.all test = true := by
  induction place generalizing tree with
  | root => exact whole
  | inside outer tag attributes former latter ih =>
      have around := ih whole
      rw [Tree.all, Tree.allOfList_append, Tree.allOfList] at around
      simp only [Bool.and_eq_true] at around
      exact around.2.2.1

end Place

end WordStream.Markup

namespace WordStream.Body

open Markup (Attributes Call Place Tree)
open Ancestry (within)

variable {context : Context}

/-! ## Flags -/

theorem within_cons (kind : Kind) (ancestors : List Kind) (tag : Tag) :
    within (kind :: ancestors) tag = (kind == .content tag || within ancestors tag) := rfl

/-- A flag for elements of a tag that is set only within such elements. -/
def SetWithin (flag : Bool) (ancestors : List Kind) (tag : Tag) : Prop :=
  flag = true → within ancestors tag = true

namespace SetWithin

variable {flag : Bool} {ancestors : List Kind} {tag : Tag} {kind : Kind}

theorem unset : SetWithin false ancestors tag := by
  intro set
  cases set

theorem opened (suits : SetWithin flag ancestors tag) (kind : Kind) :
    SetWithin (kind == .content tag || flag) (kind :: ancestors) tag := by
  intro set
  rw [Bool.or_eq_true] at set
  rw [within_cons, Bool.or_eq_true]
  exact set.imp_right suits

theorem closed (suits : SetWithin flag (kind :: ancestors) tag) :
    SetWithin (kind != .content tag && flag) ancestors tag := by
  intro set
  rw [Bool.and_eq_true, bne_iff_ne] at set
  have around := suits set.2
  rw [within_cons, Bool.or_eq_true, beq_iff_eq] at around
  exact around.resolve_left set.1

theorem eq_false (suits : SetWithin flag ancestors tag) (outside : within ancestors tag = false) :
    flag = false := by
  rw [Bool.eq_false_iff]
  intro set
  have inside := suits set
  rw [outside] at inside
  cases inside

end SetWithin

/-! ## Grammars -/

/-- Says of every kind of element where it may stand, by the kinds of the open elements around it,
innermost first. -/
abbrev Grammar := List Kind → Kind → Bool

mutual

/-- Whether the elements of a tree outside skipped branches stand where a grammar allows. -/
def follows (context : Context) (grammar : Grammar) (ancestors : List Kind) : Tree → Bool
  | .element tag _ children =>
      match Kind.ofTag? tag with
      | some kind =>
          kind.skipped context ||
            (grammar ancestors kind && followsOfList context grammar (kind :: ancestors) children)
      | none => true
  | .text _ => true

def followsOfList (context : Context) (grammar : Grammar) (ancestors : List Kind) :
    List Tree → Bool
  | [] => true
  | tree :: trees =>
      follows context grammar ancestors tree && followsOfList context grammar ancestors trees

end

section

variable {grammar : Grammar} {ancestors : List Kind}

@[simp]
theorem followsOfList_nil : followsOfList context grammar ancestors [] = true := by
  rw [followsOfList]

@[simp]
theorem followsOfList_cons (tree : Tree) (trees : List Tree) :
    followsOfList context grammar ancestors (tree :: trees) =
      (follows context grammar ancestors tree && followsOfList context grammar ancestors trees) := by
  rw [followsOfList]

theorem followsOfList_append (former latter : List Tree) :
    followsOfList context grammar ancestors (former ++ latter) =
      (followsOfList context grammar ancestors former &&
        followsOfList context grammar ancestors latter) := by
  induction former with
  | nil => simp
  | cons tree trees ih => simp [ih, Bool.and_assoc]

theorem follows_element {tag : String} {kind : Kind} {attributes : Attributes}
    {children : List Tree} (found : Kind.ofTag? tag = some kind)
    (shown : kind.skipped context = false) :
    follows context grammar ancestors (.element tag attributes children) =
      (grammar ancestors kind && followsOfList context grammar (kind :: ancestors) children) := by
  rw [follows, found]
  simp only [shown, Bool.false_or]

end

def anyGrammar : Grammar := fun _ _ => true

mutual

theorem follows_any : ∀ {tree : Tree} {ancestors : List Kind},
    follows context anyGrammar ancestors tree = true
  | .text content, _ => by rw [follows]
  | .element tag attributes children, ancestors => by
      rw [follows]
      cases Kind.ofTag? tag with
      | none => rfl
      | some kind => simp [anyGrammar, followsOfList_any]

theorem followsOfList_any : ∀ {trees : List Tree} {ancestors : List Kind},
    followsOfList context anyGrammar ancestors trees = true
  | [], _ => by rw [followsOfList]
  | tree :: trees, _ => by
      rw [followsOfList, follows_any, followsOfList_any]
      rfl

end

/-! ## The elements around a place -/

/-- The kinds of the elements around a place, innermost first. -/
def ancestorsOf : Place → List Kind
  | .root => []
  | .inside outer tag _ _ _ => (Kind.ofTag? tag).toList ++ ancestorsOf outer

/-- Whether a place is outside skipped branches. -/
def isShown (context : Context) (place : Place) : Bool :=
  (ancestorsOf place).all fun kind => !kind.skipped context

section

variable {outer : Place} {tag : String} {kind : Kind} {attributes : Attributes}
  {former latter : List Tree}

theorem ancestorsOf_inside (found : Kind.ofTag? tag = some kind) :
    ancestorsOf (.inside outer tag attributes former latter) = kind :: ancestorsOf outer := by
  rw [ancestorsOf, found]
  rfl

theorem isShown_inside (found : Kind.ofTag? tag = some kind) :
    isShown context (.inside outer tag attributes former latter) =
      (!kind.skipped context && isShown context outer) := by
  rw [isShown, ancestorsOf_inside found, List.all_cons, isShown]

end

theorem follows_of_fill {grammar : Grammar} {tree : Tree} (place : Place)
    (named : (place.fill tree).all Tree.isNamed = true) (shown : isShown context place = true)
    (whole : follows context grammar [] (place.fill tree) = true) :
    follows context grammar (ancestorsOf place) tree = true := by
  induction place generalizing tree with
  | root => exact whole
  | inside outer tag attributes former latter ih =>
      have here := Place.all_of_fill outer named
      rw [Tree.all, Bool.and_eq_true] at here
      obtain ⟨kind, found⟩ := Kind.exists_ofTag? here.1
      rw [isShown_inside found, Bool.and_eq_true, Bool.not_eq_true'] at shown
      have around := ih named shown.2 whole
      rw [follows_element found shown.1, followsOfList_append, followsOfList_cons] at around
      simp only [Bool.and_eq_true] at around
      rw [ancestorsOf_inside found]
      exact around.2.2.1

end WordStream.Body

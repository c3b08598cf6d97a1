import WordStream.Proofs.Body.Turn
import WordStream.Proofs.Markup.Name

/-!
# Elements and the gate

What an element does to a translation depends on its tag only through its kind: a branch of
alternate content, an element that carries content, or any other. Elements outside skipped
branches open and close by their kind. A skipped branch does nothing at all.
-/

set_option autoImplicit false

namespace WordStream.Markup

mutual

/-- Whether every element of a tree passes a test of its tag and attributes. -/
def Tree.all (test : String → Attributes → Bool) : Tree → Bool
  | .element tag attributes children => test tag attributes && Tree.allOfList test children
  | .text _ => true

def Tree.allOfList (test : String → Attributes → Bool) : List Tree → Bool
  | [] => true
  | tree :: trees => tree.all test && Tree.allOfList test trees

end

namespace Tree

def isNamed (tag : String) (_attributes : Attributes) : Bool :=
  (splitName? tag).isSome

def hasNamedAttributes (_tag : String) (attributes : Attributes) : Bool :=
  attributes.all fun entry => (splitName? entry.1).isSome

end Tree

end WordStream.Markup

namespace WordStream.Body

open Markup (Attributes Call Tree joinName splitName? splitName?_joinName)

/-! ## Kinds of elements -/

/-- What an element is to a translation. -/
inductive Kind where
  | branch (branch : Branch)
  | content (tag : Tag)
  | other
deriving DecidableEq, Repr

namespace Kind

def of (space : Option String) (name : String) : Kind :=
  match Branch.of? space name with
  | some found => .branch found
  | none =>
      match Tag.ofName? name with
      | some found => .content found
      | none => .other

/-- The kind of the element with a tag, or `none` if the tag has no parts. -/
def ofTag? (tag : String) : Option Kind :=
  (splitName? tag).map fun (space, name) => of (if space.isEmpty then none else some space) name

/-- A tag with parts gives its starts and ends the same namespace and local name. -/
theorem parts_of_ofTag? {tag : String} {kind : Kind} (found : ofTag? tag = some kind) :
    ∃ (space : Option String) (name : String), of space name = kind ∧
      (∀ (state : State) (attributes : Attributes),
        Signal.ofCall? state (.start tag attributes) = some (.start space name attributes)) ∧
          ∀ state : State, Signal.ofCall? state (.finish tag) = some (.finish space name) := by
  obtain ⟨⟨space, name⟩, split, rfl⟩ := Option.map_eq_some_iff.1 found
  exact ⟨_, name, rfl, fun _ _ => by rw [Signal.ofCall?, split, Option.map_some],
    fun _ => by rw [Signal.ofCall?, split, Option.map_some]⟩

theorem exists_ofTag? {tag : String} {attributes : Attributes}
    (named : Tree.isNamed tag attributes = true) : ∃ kind, ofTag? tag = some kind := by
  obtain ⟨parts, split⟩ := Option.isSome_iff_exists.1 named
  exact ⟨_, by rw [ofTag?, split, Option.map_some]⟩

/-- Whether a translation skips the elements of a kind with all they hold. -/
def skipped (context : Context) : Kind → Bool
  | .branch .choice => true
  | .branch .fallback => context.skipFallback
  | .content _ | .other => false

end Kind

def Branch.name : Branch → String
  | .choice => "Choice"
  | .fallback => "Fallback"

theorem Branch.name_of_of? {space : Option String} {name : String} {branch : Branch}
    (found : Branch.of? space name = some branch) : name = "Choice" ∨ name = "Fallback" := by
  unfold Branch.of? at found
  split at found
  · split at found
    · exact .inl rfl
    · exact .inr rfl
    · cases found
  · cases found

theorem Branch.ofName?_of_of? {space : Option String} {name : String} {branch : Branch}
    (found : Branch.of? space name = some branch) : Tag.ofName? name = none := by
  rcases name_of_of? found with rfl | rfl <;> rfl

/-- The local name of a content element. No element is an edit without a kind. -/
def Tag.name : Tag → String
  | .runFormat => "rPr"
  | .run => "r"
  | .text => "t"
  | .tab => "tab"
  | .paragraph => "p"
  | .bold => "b"
  | .cell => "tc"
  | .paragraphStyle => "pStyle"
  | .italic => "i"
  | .row => "tr"
  | .numbering => "numPr"
  | .level => "ilvl"
  | .numberingId => "numId"
  | .lineBreak => "br"
  | .carriageReturn => "cr"
  | .bookmarkStart => "bookmarkStart"
  | .bookmarkEnd => "bookmarkEnd"
  | .hyperlink => "hyperlink"
  | .table => "tbl"
  | .blip => "blip"
  | .drawingProperties => "cNvPr"
  | .picture => "pic"
  | .legacyPicture => "pict"
  | .imageData => "imagedata"
  | .footnote => "footnoteReference"
  | .endnote => "endnoteReference"
  | .edit .none => ""
  | .edit .insert => "ins"
  | .edit .delete => "del"
  | .edit .moveTo => "moveTo"
  | .edit .moveFrom => "moveFrom"
  | .deletedText => "delText"
  | .oleObject => "OLEObject"
  | .paragraphFormat => "pPr"

/-- A content element is known by one name alone. -/
theorem Tag.name_of_ofName? {name : String} {tag : Tag} (found : Tag.ofName? name = some tag) :
    name = tag.name := by
  unfold Tag.ofName? at found
  split at found <;> cases found <;> rfl

theorem Tag.ofName?_name {tag : Tag} (named : tag ≠ .edit .none) :
    Tag.ofName? tag.name = some tag := by
  cases tag with
  | edit kind =>
      cases kind with
      | none => exact absurd rfl named
      | _ => rfl
  | _ => rfl

theorem Kind.name_of_of {space : Option String} {name : String} {tag : Tag}
    (found : Kind.of space name = .content tag) : name = tag.name := by
  unfold Kind.of at found
  split at found
  · cases found
  · split at found
    · next tagged =>
        cases found
        exact Tag.name_of_ofName? tagged
    · cases found

/-- In any namespace the name of a content element stands for it. -/
theorem Kind.of_name {tag : Tag} (named : tag ≠ .edit .none) (space : Option String) :
    Kind.of space tag.name = .content tag := by
  have known := Tag.ofName?_name named
  cases branch : Branch.of? space tag.name with
  | some found =>
      rw [Branch.ofName?_of_of? branch] at known
      cases known
  | none => rw [Kind.of, branch, known]

theorem Kind.of_eq_paragraphFormat {space : Option String} {name : String} :
    Kind.of space name = .content .paragraphFormat ↔ name = "pPr" := by
  have named : Tag.paragraphFormat ≠ .edit .none := by decide
  exact ⟨Kind.name_of_of, fun same => same ▸ Kind.of_name named space⟩

@[simp]
theorem splitName?_wordSpace (name : String) :
    splitName? (joinName wordSpace name) = some (wordSpace, name) :=
  splitName?_joinName (by decide) (by decide) name

@[simp]
theorem splitName?_compatibilitySpace (name : String) :
    splitName? (joinName compatibilitySpace name) = some (compatibilitySpace, name) :=
  splitName?_joinName (by decide) (by decide) name

@[simp]
theorem Kind.ofTag?_wordSpace {tag : Tag} (named : tag ≠ .edit .none) :
    Kind.ofTag? (joinName wordSpace tag.name) = some (.content tag) := by
  have filled : wordSpace ≠ "" := by decide
  simp [Kind.ofTag?, filled, Kind.of_name named]

@[simp]
theorem Kind.ofTag?_compatibilitySpace (branch : Branch) :
    Kind.ofTag? (joinName compatibilitySpace branch.name) = some (.branch branch) := by
  have filled : compatibilitySpace ≠ "" := by decide
  cases branch <;> simp [Kind.ofTag?, filled, Kind.of, Branch.of?, Branch.name]

/-! ## Written elements -/

def wordElement (tag : Tag) (attributes : Attributes) (children : List Tree) : Tree :=
  .element (joinName wordSpace tag.name) attributes children

def branchElement (branch : Branch) (children : List Tree) : Tree :=
  .element (joinName compatibilitySpace branch.name) [] children

/-! ## Elements outside skipped branches -/

/-- The events that report a pending paragraph before an element of a kind begins. -/
def State.announcement (state : State) (kind : Kind) : List Event :=
  if state.paragraphPending && kind != .content .paragraphFormat then
    [.paragraphStart state.paragraphFormat]
  else []

/-- The outcome of the start of an element of a kind, past the announcement. -/
def startKind (context : Context) (attributes : Attributes) (state : State) : Kind → Outcome
  | .branch branch => { state := state.openBranch branch }
  | .content tag => startTag context attributes state tag
  | .other => { state }

def finishKind (context : Context) (state : State) : Kind → Outcome
  | .branch branch => { state := state.closeBranch branch }
  | .content tag => endTag context state tag
  | .other => { state }

variable {context : Context} {policy : Policy} {state : State}

theorem State.gated_iff :
    state.gated context = true ↔
      0 < state.choiceDepth ∨ (context.skipFallback = true ∧ 0 < state.fallbackDepth) := by
  simp [State.gated]

theorem State.gated_openBranch (state : State) (branch : Branch) :
    (state.openBranch branch).gated context =
      (state.gated context || (Kind.branch branch).skipped context) := by
  rw [Bool.eq_iff_iff, Bool.or_eq_true, State.gated_iff, State.gated_iff]
  cases branch with
  | choice => simp [State.openBranch, Kind.skipped]
  | fallback =>
      cases held : context.skipFallback <;> simp [State.openBranch, Kind.skipped, held]

@[simp]
theorem State.closeBranch_openBranch (state : State) (branch : Branch) :
    (state.openBranch branch).closeBranch branch = state := by
  cases branch <;> rfl

theorem start_of_shown {space : Option String} {name : String} (attributes : Attributes)
    (shown : (Kind.of space name).skipped context = false) (ungated : state.gated context = false) :
    start context state space name attributes =
      let outcome :=
        startKind context attributes { state with paragraphPending := false } (Kind.of space name)
      { outcome with events := state.announcement (Kind.of space name) ++ outcome.events } := by
  have format : (name != "pPr") = (Kind.of space name != .content .paragraphFormat) := by
    rw [Bool.eq_iff_iff]
    simp [Kind.of_eq_paragraphFormat]
  cases found : Branch.of? space name with
  | some branch =>
      have kind : Kind.of space name = .branch branch := by simp [Kind.of, found]
      have passes : (state.openBranch branch).gated context = false := by
        rw [State.gated_openBranch, ungated, ← kind, shown]
        rfl
      rw [kind] at format ⊢
      simp only [start, countBranch, found, passes, Branch.ofName?_of_of? found,
        announceParagraph, format, startKind, State.announcement]
      cases branch <;> simp [State.openBranch]
  | none =>
      simp only [start, countBranch, found, ungated, announceParagraph, format,
        State.announcement]
      cases tagged : Tag.ofName? name <;> simp [Kind.of, found, tagged, startKind]

theorem finish_of_shown {space : Option String} {name : String}
    (ungated : state.gated context = false) :
    finish context state space name = finishKind context state (Kind.of space name) := by
  unfold finish Kind.of
  cases Branch.of? space name with
  | some branch => rfl
  | none => cases tagged : Tag.ofName? name <;> simp [ungated, finishKind]

theorem receive_start {tag : String} {kind : Kind} (attributes : Attributes)
    (found : Kind.ofTag? tag = some kind) (shown : kind.skipped context = false)
    (ungated : state.gated context = false) :
    receive context policy state (.start tag attributes) =
      let outcome := startKind context attributes { state with paragraphPending := false } kind
      { outcome with events := state.announcement kind ++ outcome.events } := by
  obtain ⟨space, name, rfl, started, _⟩ := Kind.parts_of_ofTag? found
  simp only [receive, started, step]
  exact start_of_shown attributes shown ungated

theorem receive_finish {tag : String} {kind : Kind} (found : Kind.ofTag? tag = some kind)
    (ungated : state.gated context = false) :
    receive context policy state (.finish tag) = finishKind context state kind := by
  obtain ⟨space, name, rfl, _, finished⟩ := Kind.parts_of_ofTag? found
  simp only [receive, finished, step]
  exact finish_of_shown ungated

/-- An element outside skipped branches does what its start, its children and its end do. -/
theorem carries_of_shown {tag : String} {kind : Kind} {attributes : Attributes}
    {children : List Tree} {opened inner after : State} {opening events closing all : List Event}
    (found : Kind.ofTag? tag = some kind) (shown : kind.skipped context = false)
    (held : Carries context opened (Tree.callsOfList children) inner events)
    (opens : startKind context attributes { state with paragraphPending := false } kind =
      { state := opened, events := opening })
    (closes : finishKind context inner kind = { state := after, events := closing })
    (outside : state.gated context = false) (inside : inner.gated context = false)
    (whole : state.announcement kind ++ opening ++ (events ++ closing) = all) :
    Carries context state (Tree.element tag attributes children).calls after all := by
  rw [← whole]
  refine .cons (fun policy => ?_) (held.append (.single fun policy => ?_))
  · rw [receive_start attributes found shown outside, opens]
  · rw [receive_finish found inside, closes]

/-- Whether the translation keeps text between tags, blank or not. -/
def keepsContent (policy : Policy) (state : State) (content : String) : Bool :=
  if Text.isBlankText content && !state.inText then keepsBlank policy state
  else keepsText policy state

theorem receive_data (content : String) (ungated : state.gated context = false) :
    receive context policy state (.data content) =
      { state := if keepsContent policy state content then state.write content else state } := by
  cases blank : Text.isBlankText content && !state.inText <;>
    simp only [receive, Signal.ofCall?, keepsContent, blank, step, ungated, Bool.not_false,
      Bool.true_and, if_true, if_false, Bool.false_eq_true]

/-! ## The counters -/

def State.withDepths (state : State) (choices fallbacks : Nat) : State :=
  { state with choiceDepth := choices, fallbackDepth := fallbacks }

def Outcome.withDepths (outcome : Outcome) (choices fallbacks : Nat) : Outcome :=
  { outcome with state := outcome.state.withDepths choices fallbacks }

theorem State.withDepths_self (state : State) :
    state.withDepths state.choiceDepth state.fallbackDepth = state := rfl

theorem State.withDepths_ite (condition : Bool) (left right : State) (choices fallbacks : Nat) :
    (if condition then left else right).withDepths choices fallbacks =
      if condition then left.withDepths choices fallbacks
      else right.withDepths choices fallbacks := by
  cases condition <;> rfl

/-- Content elements neither read the counters nor change them. -/
theorem startTag_withDepths (context : Context) (attributes : Attributes) (state : State)
    (tag : Tag) (choices fallbacks : Nat) :
    startTag context attributes (state.withDepths choices fallbacks) tag =
      (startTag context attributes state tag).withDepths choices fallbacks := by
  cases tag with
  | tab | bold | italic | paragraphStyle | level | numberingId =>
      simp only [startTag, Outcome.withDepths, State.withDepths_ite]
      rfl
  | oleObject =>
      simp only [startTag]
      cases scanObject? attributes <;> rfl
  | _ => rfl

theorem endTag_withDepths (tag : Tag) (choices fallbacks : Nat) :
    endTag context (state.withDepths choices fallbacks) tag =
      (endTag context state tag).withDepths choices fallbacks := by
  cases tag <;> rfl

/-- Elements that are no branches, and texts, do the same at any counters that skip nothing. -/
theorem receive_start_withDepths {tag : String} {kind : Kind} {choices fallbacks : Nat}
    (attributes : Attributes) (found : Kind.ofTag? tag = some kind)
    (plain : ∀ branch, kind ≠ .branch branch) (ungated : state.gated context = false)
    (remains : (state.withDepths choices fallbacks).gated context = false) :
    receive context policy (state.withDepths choices fallbacks) (.start tag attributes) =
      (receive context policy state (.start tag attributes)).withDepths choices fallbacks := by
  have shown : kind.skipped context = false := by
    cases kind with
    | branch branch => exact absurd rfl (plain branch)
    | content | other => rfl
  rw [receive_start attributes found shown ungated, receive_start attributes found shown remains]
  cases kind with
  | branch branch => exact absurd rfl (plain branch)
  | content tag =>
      have same := startTag_withDepths context attributes { state with paragraphPending := false }
        tag choices fallbacks
      simp only [startKind]
      exact congrArg (fun outcome : Outcome =>
        { outcome with events := state.announcement (.content tag) ++ outcome.events }) same
  | other => rfl

theorem receive_finish_withDepths {tag : String} {kind : Kind} {choices fallbacks : Nat}
    (found : Kind.ofTag? tag = some kind) (plain : ∀ branch, kind ≠ .branch branch)
    (ungated : state.gated context = false)
    (remains : (state.withDepths choices fallbacks).gated context = false) :
    receive context policy (state.withDepths choices fallbacks) (.finish tag) =
      (receive context policy state (.finish tag)).withDepths choices fallbacks := by
  rw [receive_finish found ungated, receive_finish found remains]
  cases kind with
  | branch branch => exact absurd rfl (plain branch)
  | content tag => exact endTag_withDepths tag choices fallbacks
  | other => rfl

theorem receive_data_withDepths {choices fallbacks : Nat} (content : String)
    (ungated : state.gated context = false)
    (remains : (state.withDepths choices fallbacks).gated context = false) :
    receive context policy (state.withDepths choices fallbacks) (.data content) =
      (receive context policy state (.data content)).withDepths choices fallbacks := by
  rw [receive_data content ungated, receive_data content remains]
  simp only [Outcome.withDepths, State.withDepths_ite]
  rfl

/-! ## Skipped branches -/

/-- The state in which the gate is tested for the start of an element of a kind. -/
def State.counting (state : State) : Kind → State
  | .branch branch => state.openBranch branch
  | .content _ | .other => state

theorem State.gated_counting (state : State) (kind : Kind) :
    (state.counting kind).gated context = (state.gated context || kind.skipped context) := by
  cases kind with
  | branch branch => exact state.gated_openBranch branch
  | content | other => simp [State.counting, Kind.skipped]

/-- Behind the gate the start of an element is counted and nothing else. -/
theorem start_of_gated {space : Option String} {name : String} (attributes : Attributes)
    (gated : (state.counting (Kind.of space name)).gated context = true) :
    start context state space name attributes =
      { state := state.counting (Kind.of space name) } := by
  have counted : countBranch state space name = state.counting (Kind.of space name) := by
    unfold countBranch Kind.of
    cases Branch.of? space name with
    | some branch => rfl
    | none => cases Tag.ofName? name <;> rfl
  simp only [start, counted, gated, if_true]

theorem receive_start_of_gated {tag : String} {kind : Kind} (attributes : Attributes)
    (found : Kind.ofTag? tag = some kind)
    (gated : (state.counting kind).gated context = true) :
    receive context policy state (.start tag attributes) = { state := state.counting kind } := by
  obtain ⟨space, name, rfl, started, _⟩ := Kind.parts_of_ofTag? found
  simp only [receive, started, step]
  exact start_of_gated attributes gated

theorem receive_finish_of_gated {tag : String} {kind : Kind}
    (found : Kind.ofTag? tag = some kind)
    (gated : (state.counting kind).gated context = true) :
    receive context policy (state.counting kind) (.finish tag) = { state } := by
  obtain ⟨space, name, rfl, _, finished⟩ := Kind.parts_of_ofTag? found
  simp only [receive, finished, step]
  unfold finish
  cases branch : Branch.of? space name with
  | some opened => simp [Kind.of, branch, State.counting]
  | none =>
      have same : state.counting (Kind.of space name) = state := by
        cases tagged : Tag.ofName? name <;> simp [Kind.of, branch, tagged, State.counting]
      rw [same] at gated ⊢
      simp [gated]

mutual

/-- Behind the gate a tree does nothing. The counters rise in the same places as they fall. -/
theorem carries_of_gated {state : State} (gated : state.gated context = true) :
    ∀ {tree : Tree}, tree.all Tree.isNamed = true → Carries context state tree.calls state []
  | .element tag attributes children, named => by
      rw [Tree.all, Bool.and_eq_true] at named
      obtain ⟨kind, found⟩ := Kind.exists_ofTag? named.1
      have remains : (state.counting kind).gated context = true := by
        rw [State.gated_counting, gated, Bool.true_or]
      exact .cons (fun _ => receive_start_of_gated attributes found remains)
        ((carriesList_of_gated remains named.2).append
          (.single fun _ => receive_finish_of_gated found remains))
  | .text content, _ => .single fun policy => by
      simp only [receive, Signal.ofCall?]
      split <;> simp [step, gated]

theorem carriesList_of_gated {state : State} (gated : state.gated context = true) :
    ∀ {trees : List Tree}, Tree.allOfList Tree.isNamed trees = true →
      Carries context state (Tree.callsOfList trees) state []
  | [], _ => .nil state
  | tree :: trees, named => by
      rw [Tree.allOfList, Bool.and_eq_true] at named
      exact (carries_of_gated gated named.1).append (carriesList_of_gated gated named.2)

end

theorem carries_of_skipped {tag : String} {kind : Kind} {attributes : Attributes}
    {children : List Tree} (found : Kind.ofTag? tag = some kind)
    (skipped : kind.skipped context = true)
    (named : Tree.allOfList Tree.isNamed children = true) :
    Carries context state (Tree.element tag attributes children).calls state [] := by
  have gated : (state.counting kind).gated context = true := by
    rw [State.gated_counting, skipped, Bool.or_true]
  exact .cons (fun _ => receive_start_of_gated attributes found gated)
    ((carriesList_of_gated gated named).append
      (.single fun _ => receive_finish_of_gated found gated))

end WordStream.Body

import WordStream.Proofs.Body.Conservation
import WordStream.Proofs.Body.Report
import WordStream.Proofs.Body.Suppression

/-!
# The text of removed runs

While neither deleted nor moved text is kept, a run that was moved away or that holds deleted text alone is
reported without that text. What stands for a tab or a line break in it is reported all the same, whatever
the edit in force.
-/

set_option autoImplicit false

namespace WordStream.Body

open Markup (Attributes Call Place Tree joinName)
open Ancestry (within)

variable {context : Context} {ancestors : List Kind} {state : State} {kind : Kind}

/-! ## The flags and the text in the making -/

theorem startKind_inParagraphFormat (attributes : Attributes) (state : State) (kind : Kind) :
    (startKind context attributes state kind).state.inParagraphFormat =
      (kind == .content .paragraphFormat || state.inParagraphFormat) :=
  congrArg State.inParagraphFormat (state_startKind attributes state kind)

theorem finishKind_inParagraphFormat (state : State) (kind : Kind) :
    (finishKind context state kind).state.inParagraphFormat =
      (kind != .content .paragraphFormat && state.inParagraphFormat) :=
  congrArg State.inParagraphFormat (state_finishKind state kind)

theorem startKind_buffer (attributes : Attributes) (state : State) (kind : Kind) :
    (startKind context attributes state kind).state.buffer =
      state.buffer ++ kind.startText state.inParagraphFormat :=
  congrArg State.buffer (state_startKind attributes state kind)

theorem finishKind_buffer (state : State) (kind : Kind) :
    (finishKind context state kind).state.buffer =
      if kind = .content .run then "" else state.buffer :=
  congrArg State.buffer (state_finishKind state kind)

theorem finishKind_ungated (kind : Kind) (ungated : state.gated context = false) :
    (finishKind context state kind).state.gated context = false := by
  rw [State.gated_congr (finishKind_depths state kind)]
  cases kind with
  | branch branch =>
      rw [Bool.eq_false_iff, ne_eq, State.gated_iff] at ungated ⊢
      intro gated
      apply ungated
      have fewer (depth : Nat) (open_ : 0 < depth - 1) : 0 < depth := by omega
      cases branch with
      | choice => exact gated.imp_left (fewer _)
      | fallback => exact gated.imp_right (And.imp_right (fewer _))
  | other => exact ungated
  | content tag => exact ungated

theorem keepsContent_withholding (state : State) (content : String) :
    keepsContent withholding state content = (state.inText && state.edit != .moveFrom) := by
  cases inside : state.inText <;>
    simp [keepsContent, keepsBlank, keepsText, withholding, inside]

/-- Under one policy the whole state goes on by itself. -/
def stateView (context : Context) (policy : Policy) : View context State where
  read state _ := state
  opens attributes kind state :=
    (startKind context attributes { state with paragraphPending := false } kind).state
  closes kind state := (finishKind context state kind).state
  texts content state := if keepsContent policy state content then state.write content else state
  allows told := told = policy
  read_start _ _ _ _ := rfl
  read_finish _ _ _ := rfl
  read_text := by
    rintro _ state _ content rfl
    rfl

/-! ## Text in the place of elements -/

/-- The tabs outside paragraph formatting, and the breaks. -/
def insertions (ancestors : List Kind) : Tag → Bool
  | .tab => !within ancestors .paragraphFormat
  | .lineBreak | .carriageReturn => true
  | _ => false

def insertedText (mentioned : List Mention) : String :=
  String.join (mentioned.map fun (tag, _) => (Kind.content tag).startText false)

theorem insertedText_append (former latter : List Mention) :
    insertedText (former ++ latter) = insertedText former ++ insertedText latter := by
  simp [insertedText]

theorem insertedText_mention (ancestors : List Kind) (attributes : Attributes) (kind : Kind) :
    insertedText (kind.mention insertions ancestors attributes) =
      kind.startText (within ancestors .paragraphFormat) := by
  cases kind with
  | branch branch => rfl
  | other => rfl
  | content tag =>
      cases tag with
      | tab =>
          cases inside : within ancestors .paragraphFormat <;>
            simp [Kind.mention, insertions, insertedText, Kind.startText, inside]
      | _ => rfl

/-! ## Grammars -/

/-- No edit is inside of another. -/
def editGrammar : Grammar := fun ancestors kind => !(ancestors.any Kind.edits && kind.edits)

/-- Texts stand in moved content only, and neither runs nor edits are inside, nor paragraph formatting in
other paragraph formatting. -/
def removedGrammar : Grammar := fun ancestors kind =>
  match kind with
  | .content .run | .content (.edit _) => false
  | .content .text => within ancestors (.edit .moveFrom)
  | .content .paragraphFormat => !within ancestors .paragraphFormat
  | _ => true

/-- What stands for text is in runs, but for tabs in paragraph formatting, and neither runs nor paragraph
formatting are inside of one another. -/
def textGrammar : Grammar := fun ancestors kind =>
  match kind with
  | .content .run => !within ancestors .run
  | .content .text | .content .lineBreak | .content .carriageReturn => within ancestors .run
  | .content .tab => within ancestors .run || within ancestors .paragraphFormat
  | .content .paragraphFormat => !within ancestors .paragraphFormat
  | _ => true

/-! ## Outside runs -/

theorem suits_initial : Suits context [] {} where
  ungated := by simp [State.gated]
  shown := rfl
  text inside := by cases inside
  moved inside := by cases inside

theorem stateView_keeps_suits :
    (stateView context withholding).Keeps editGrammar (Suits context) where
  opens _ attributes kind _ allowed shown suits := by
    rw [editGrammar, Bool.not_eq_true'] at allowed
    exact suits.start attributes shown allowed
  closes _ kind _ state allowed _ suits := by
    rw [editGrammar, Bool.not_eq_true'] at allowed
    exact suits.finish allowed (finishKind_ungated kind suits.ungated)
  texts _ content _ suits := suits.write _ content

/-- Formatting that is not inside of other formatting is left when it ends. -/
theorem leaves_paragraphFormat
    (alone : kind = .content .paragraphFormat → within ancestors .paragraphFormat = false) :
    (kind != .content .paragraphFormat && within (kind :: ancestors) .paragraphFormat) =
      within ancestors .paragraphFormat := by
  rw [within_cons]
  by_cases ends : kind = .content .paragraphFormat
  · rw [alone ends, ends]
    rfl
  · rw [bne_iff_ne.2 ends, beq_false_of_ne ends]
    rfl

/-- What the flags and the text in the making tell of the open elements. -/
structure Tidy (ancestors : List Kind) (state : State) : Prop where
  text : SetWithin state.inText ancestors .text
  surrounded : within ancestors .text = true → within ancestors .run = true
  format : state.inParagraphFormat = within ancestors .paragraphFormat
  buffer : within ancestors .run = false → state.buffer = ""

namespace Tidy

theorem initial : Tidy [] {} where
  text := .unset
  surrounded inside := by cases inside
  format := rfl
  buffer _ := rfl

theorem start (tidy : Tidy ancestors state) (attributes : Attributes)
    (allowed : textGrammar ancestors kind = true) :
    Tidy (kind :: ancestors)
      (startKind context attributes { state with paragraphPending := false } kind).state where
  text := by
    rw [(startKind_flags attributes _ kind).1]
    exact tidy.text.opened kind
  surrounded := by
    intro inside
    rw [within_cons, Bool.or_eq_true] at inside ⊢
    rcases inside with opens | outer
    · obtain rfl := eq_of_beq opens
      exact .inr allowed
    · exact .inr (tidy.surrounded outer)
  format := by
    rw [startKind_inParagraphFormat, within_cons, tidy.format]
  buffer := by
    intro outside
    rw [within_cons, Bool.or_eq_false_iff] at outside
    obtain ⟨_, outer⟩ := outside
    rw [startKind_buffer, tidy.buffer outer, tidy.format]
    cases kind with
    | branch | other => rfl
    | content tag =>
        cases tag with
        | tab =>
            rw [textGrammar, outer, Bool.false_or] at allowed
            rw [allowed]
            rfl
        | lineBreak | carriageReturn =>
            rw [textGrammar, outer] at allowed
            cases allowed
        | _ => rfl

theorem finish {before : State} (earlier : Tidy ancestors before)
    (tidy : Tidy (kind :: ancestors) state) (allowed : textGrammar ancestors kind = true) :
    Tidy ancestors (finishKind context state kind).state where
  text := by
    rw [(finishKind_flags state kind).1]
    exact tidy.text.closed
  -- This is about the open elements alone, which are again those at the start.
  surrounded := earlier.surrounded
  format := by
    rw [finishKind_inParagraphFormat, tidy.format]
    apply leaves_paragraphFormat
    rintro rfl
    rwa [textGrammar, Bool.not_eq_true'] at allowed
  buffer := by
    intro outside
    rw [finishKind_buffer]
    split
    · rfl
    · next other =>
        apply tidy.buffer
        rw [within_cons, Bool.or_eq_false_iff, beq_eq_false_iff_ne]
        exact ⟨other, outside⟩

theorem write (tidy : Tidy ancestors state) (content : String) :
    Tidy ancestors
      (if keepsContent withholding state content then state.write content else state) := by
  rw [keepsContent_withholding]
  split
  · next kept =>
      rw [Bool.and_eq_true] at kept
      refine ⟨tidy.text, tidy.surrounded, tidy.format, ?_⟩
      intro outside
      have inside := tidy.surrounded (tidy.text kept.1)
      rw [outside] at inside
      cases inside
  · exact tidy

end Tidy

theorem stateView_keeps_tidy : (stateView context withholding).Keeps textGrammar Tidy where
  opens _ attributes _ _ allowed _ tidy := tidy.start attributes allowed
  closes _ _ _ _ allowed earlier tidy := earlier.finish tidy allowed
  texts _ content _ tidy := tidy.write content

theorem stateView_keeps_format :
    (stateView context withholding).Keeps anyGrammar
      (fun ancestors state => SetWithin state.inParagraphFormat ancestors .paragraphFormat) where
  opens _ attributes kind _ _ _ held := by
    simp only [stateView, startKind_inParagraphFormat]
    exact held.opened kind
  closes _ kind _ _ _ _ held := by
    simp only [stateView, finishKind_inParagraphFormat]
    exact held.closed
  texts _ _ _ held := by
    simp only [stateView]
    split <;> exact held

/-! ## Inside removed runs -/

/-- What the flags tell of the open elements where text stands in moved content only. -/
structure Withheld (context : Context) (ancestors : List Kind) (state : State) : Prop
    extends Suits context ancestors state where
  removed : state.inText = true → within ancestors (.edit .moveFrom) = true
  format : state.inParagraphFormat = within ancestors .paragraphFormat

namespace Withheld

theorem apart (allowed : removedGrammar ancestors kind = true) :
    (ancestors.any Kind.edits && kind.edits) = false := by
  cases kind with
  | branch | other => exact Bool.and_false _
  | content tag =>
      cases tag with
      | edit => cases allowed
      | _ => exact Bool.and_false _

theorem start (withheld : Withheld context ancestors state) (attributes : Attributes)
    (allowed : removedGrammar ancestors kind = true) (shown : kind.skipped context = false) :
    Withheld context (kind :: ancestors)
      (startKind context attributes { state with paragraphPending := false } kind).state where
  toSuits := withheld.toSuits.start attributes shown (apart allowed)
  removed := by
    intro inside
    rw [(startKind_flags attributes _ kind).1, Bool.or_eq_true] at inside
    rw [within_cons, Bool.or_eq_true]
    -- Text that begins here is in moved content by the grammar.
    rcases inside with opens | open_
    · obtain rfl := eq_of_beq opens
      exact .inr allowed
    · exact .inr (withheld.removed open_)
  format := by
    rw [startKind_inParagraphFormat, within_cons, withheld.format]

theorem finish (withheld : Withheld context (kind :: ancestors) state)
    (allowed : removedGrammar ancestors kind = true) :
    Withheld context ancestors (finishKind context state kind).state where
  toSuits := withheld.toSuits.finish (apart allowed) (finishKind_ungated kind withheld.ungated)
  removed := by
    intro inside
    rw [(finishKind_flags state kind).1, Bool.and_eq_true] at inside
    have around := withheld.removed inside.2
    rw [within_cons, Bool.or_eq_true, beq_iff_eq] at around
    rcases around with rfl | outer
    · cases allowed
    · exact outer
  format := by
    rw [finishKind_inParagraphFormat, withheld.format]
    apply leaves_paragraphFormat
    rintro rfl
    rwa [removedGrammar, Bool.not_eq_true'] at allowed

/-- A run outside texts and paragraph formatting begins with nothing to keep. -/
theorem run (suits : Suits context ancestors state)
    (format : SetWithin state.inParagraphFormat ancestors .paragraphFormat) (attributes : Attributes)
    (outsideText : within ancestors .text = false)
    (outsideFormat : within ancestors .paragraphFormat = false) :
    Withheld context (.content .run :: ancestors)
      (startKind context attributes { state with paragraphPending := false }
        (.content .run)).state where
  toSuits := suits.start attributes rfl (Bool.and_false _)
  removed := by
    intro inside
    have idle : state.inText = false := SetWithin.eq_false suits.text outsideText
    rw [(startKind_flags attributes _ _).1, idle] at inside
    cases inside
  format := by
    rw [startKind_inParagraphFormat, within_cons, outsideFormat, format.eq_false outsideFormat]

theorem keepsContent_eq_false (withheld : Withheld context ancestors state) (content : String) :
    keepsContent withholding state content = false := by
  rw [keepsContent_withholding]
  cases inside : state.inText with
  | false => rfl
  | true =>
      rw [withheld.moved (withheld.removed inside)]
      rfl

end Withheld

/-- In a removed run the text in the making grows by what stands for tabs and breaks. -/
theorem stateView_traces_insertions :
    (stateView context withholding).Traces removedGrammar insertions
      (fun ancestors before mentioned after => Withheld context ancestors before →
        Withheld context ancestors after ∧
          after.buffer = before.buffer ++ insertedText mentioned) where
  nil _ _ withheld := ⟨withheld, by simp [insertedText]⟩
  append _ _ _ _ former latter first rest withheld := by
    obtain ⟨between, firstText⟩ := first withheld
    obtain ⟨after, restText⟩ := rest between
    refine ⟨after, ?_⟩
    rw [restText, firstText, insertedText_append, String.append_assoc]
  text _ state content withheld := by
    have same : (stateView context withholding).texts content state = state := by
      simp only [stateView, withheld.keepsContent_eq_false content, Bool.false_eq_true, if_false]
    rw [same]
    exact ⟨withheld, by simp [insertedText]⟩
  element ancestors attributes kind state inner mentioned allowed shown inside withheld := by
    obtain ⟨within, text⟩ := inside (withheld.start attributes allowed shown)
    refine ⟨within.finish allowed, ?_⟩
    have other : kind ≠ .content .run := by
      rintro rfl
      cases allowed
    have opened : ((stateView context withholding).opens attributes kind state).buffer =
        state.buffer ++ kind.startText state.inParagraphFormat :=
      startKind_buffer attributes { state with paragraphPending := false } kind
    have closed : ((stateView context withholding).closes kind inner).buffer = inner.buffer :=
      (finishKind_buffer inner kind).trans (if_neg other)
    rw [closed, text, opened, withheld.format, insertedText_append, insertedText_mention,
      String.append_assoc]

/-! ## What is reported of a removed run -/

/-- While neither deleted nor moved text is kept, a run outside texts and paragraph formatting that was moved
away, or that holds no text of its own, is reported with what stands for the tabs and breaks in it, after
the text that waits when it begins. None waits where what stands for text is in runs. -/
theorem reportedAt_removedRun {place : Place} {tag : String} {attributes : Attributes}
    {children : List Tree} {turns : List Turn}
    (named : (place.fill (.element tag attributes children)).all Tree.isNamed = true)
    (shown : isShown context place = true) (found : Kind.ofTag? tag = some (.content .run))
    (apart : follows context editGrammar [] (place.fill (.element tag attributes children)) = true)
    (outsideText : within (ancestorsOf place) .text = false)
    (outsideFormat : within (ancestorsOf place) .paragraphFormat = false)
    (following :
      followsOfList context removedGrammar (.content .run :: ancestorsOf place) children = true)
    (withheld : ∀ turn ∈ turns, turn.1 = withholding)
    (told : turns.map Prod.snd = (place.fill (.element tag attributes children)).calls) :
    let waiting := (Session.turns context {} (turns.take place.before.length)).state.buffer
    let inserted :=
      insertedText (mentionsOfList context insertions (.content .run :: ancestorsOf place) children)
    (∃ (early : List Event) (format : RunFormat),
      reportedAt context place (.element tag attributes children) turns =
        early ++ [.run format (waiting ++ inserted)]) ∧
      (follows context textGrammar [] (place.fill (.element tag attributes children)) = true →
        waiting = "") := by
  intro waiting inserted
  let reached := (Session.turns context {} (turns.take place.before.length)).state
  have formerWithheld : ∀ turn ∈ turns.take place.before.length, turn.1 = withholding :=
    fun turn member => withheld turn (List.mem_of_mem_take member)
  constructor
  · obtain ⟨filled, early, _, reported, read⟩ := (stateView context withholding).exists_reportedAt
      found rfl named shown withheld told
    have suits : Suits context (ancestorsOf place) reached :=
      stateView_keeps_suits.at_place place suits_initial named shown apart formerWithheld
        (told_before told)
    have format : SetWithin reached.inParagraphFormat (ancestorsOf place) .paragraphFormat :=
      stateView_keeps_format.at_place place SetWithin.unset named shown follows_any formerWithheld
        (told_before told)
    have begun : Withheld context (.content .run :: ancestorsOf place)
        ((stateView context withholding).opens attributes (.content .run) reached) :=
      Withheld.run suits format attributes outsideText outsideFormat
    obtain ⟨_, text⟩ := stateView_traces_insertions.throughList _ following begun
    have same : filled.state = (stateView context withholding).throughList children
        ((stateView context withholding).opens attributes (.content .run) reached) := read
    have own : filled.state.buffer = waiting ++ inserted := by
      rw [same]
      exact text
    refine ⟨early, filled.state.runFormat, ?_⟩
    rw [reported, ← own]
    rfl
  · intro tidy
    have outside : within (ancestorsOf place) .run = false := by
      have rule := follows_of_fill place named shown tidy
      rw [follows_element found rfl, Bool.and_eq_true] at rule
      rw [← Bool.not_eq_true']
      exact rule.1
    have held : Tidy (ancestorsOf place) reached :=
      stateView_keeps_tidy.at_place place Tidy.initial named shown tidy formerWithheld
        (told_before told)
    exact held.buffer outside

/-- In content that was moved away, after a run that stays. -/
def movedAway : Place :=
  .inside (.inside .root (joinName wordSpace "p") []
      [wordElement .run [] [wordElement .text [] [.text "stays"]]] [])
    (joinName wordSpace "moveFrom") [] [] []

def tabbedChildren : List Tree :=
  [wordElement .text [] [.text "a"], wordElement .tab [] [], wordElement .text [] [.text "b"]]

/-- A moved run is reported with its tab. -/
theorem reportedAt_tabbedRun :
    within (ancestorsOf movedAway) (.edit .moveFrom) = true ∧
      follows {} textGrammar [] (movedAway.fill (wordElement .run [] tabbedChildren)) = true ∧
        reportedAt {} movedAway (wordElement .run [] tabbedChildren)
            ((movedAway.fill (wordElement .run [] tabbedChildren)).calls.map
              fun call => (withholding, call)) =
          [.run {} "\t"] := by
  decide +kernel

def wordChildren : List Tree :=
  [.text "\n", wordElement .text [] [.text "a b"], wordElement .deletedText [] [.text "old"]]

theorem reportedAt_wordChildren :
    follows {} textGrammar [] (movedAway.fill (wordElement .run [] wordChildren)) = true ∧
      ∃ (early : List Event) (format : RunFormat),
        reportedAt {} movedAway (wordElement .run [] wordChildren)
            ((movedAway.fill (wordElement .run [] wordChildren)).calls.map
              fun call => (withholding, call)) =
          early ++ [.run format ""] := by
  have named : (movedAway.fill (wordElement .run [] wordChildren)).all Tree.isNamed = true := by
    simp [movedAway, wordChildren, Place.fill, wordElement, Tree.all, Tree.allOfList, Tree.isNamed]
  have shown : isShown {} movedAway = true := by decide +kernel
  have found : Kind.ofTag? (joinName wordSpace Tag.run.name) = some (.content .run) :=
    Kind.ofTag?_wordSpace (by decide)
  have apart : follows {} editGrammar [] (movedAway.fill (wordElement .run [] wordChildren)) =
      true := by
    decide +kernel
  have tidy : follows {} textGrammar [] (movedAway.fill (wordElement .run [] wordChildren)) =
      true := by
    decide +kernel
  have outsideText : within (ancestorsOf movedAway) .text = false := by decide +kernel
  have outsideFormat : within (ancestorsOf movedAway) .paragraphFormat = false := by decide +kernel
  have following : followsOfList {} removedGrammar (.content .run :: ancestorsOf movedAway)
      wordChildren = true := by
    decide +kernel
  have inserted : insertedText (mentionsOfList {} insertions
      (.content .run :: ancestorsOf movedAway) wordChildren) = "" := by
    decide +kernel
  have withheld : ∀ turn ∈ ((movedAway.fill (wordElement .run [] wordChildren)).calls.map
      fun call => ((withholding, call) : Turn)), turn.1 = withholding := by
    intro turn member
    obtain ⟨call, _, rfl⟩ := List.mem_map.1 member
    rfl
  obtain ⟨⟨early, format, reported⟩, idle⟩ := reportedAt_removedRun named shown found apart
    outsideText outsideFormat following withheld (told_of_constant withholding _)
  refine ⟨tidy, early, format, ?_⟩
  rw [idle tidy, inserted] at reported
  exact reported

end WordStream.Body

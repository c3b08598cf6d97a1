import WordStream.Proofs.Body.Effect

/-!
# Conservation of text

Every signal contributes a text, which the state before it and the policy in force settle. The
texts of the runs reported so far, followed by that of the run in the making, are the
contributions in their order: none is lost, repeated or moved.
-/

set_option autoImplicit false

namespace WordStream

def Event.runText : Event → String
  | .run _ text => text
  | _ => ""

def runText (events : List Event) : String :=
  String.join (events.map Event.runText)

@[simp]
theorem runText_nil : runText [] = "" := rfl

@[simp]
theorem runText_cons (event : Event) (events : List Event) :
    runText (event :: events) = event.runText ++ runText events := by
  simp [runText]

@[simp]
theorem runText_append (former latter : List Event) :
    runText (former ++ latter) = runText former ++ runText latter := by
  simp [runText]

theorem runText_eq_empty {events : List Event} (silent : ∀ event ∈ events, event.kind ≠ .run) :
    runText events = "" := by
  induction events with
  | nil => rfl
  | cons event events ih =>
      have first : event.runText = "" := by
        cases event with
        | run => exact absurd rfl (silent _ List.mem_cons_self)
        | _ => rfl
      rw [runText_cons, first, ih fun other member => silent other (List.mem_cons_of_mem _ member)]
      rfl

namespace Body

/-! ## Contributions -/

/-- The text that the start of an element stands for. Tabs in paragraph formatting are tab stops. -/
def startText (inFormat : Bool) (name : String) : String :=
  match name with
  | "tab" => if inFormat then "" else "\t"
  | "br" | "cr" => "\n"
  | _ => ""

/-- The text that a signal contributes to the runs, by the state before it. -/
def contribution (context : Context) (policy : Policy) (state : State) : Signal → String
  | .start _ name _ => if state.gated context then "" else startText state.inParagraphFormat name
  | .finish .. => ""
  | .text text =>
      if !state.gated context &&
          ((state.inText && state.edit != .moveFrom) ||
            (state.inText && state.edit == .moveFrom && policy.moveFromText) ||
              (!state.inText && state.edit == .delete && policy.deletedText)) then text
      else ""
  | .blank text =>
      if !state.gated context &&
          (state.inText || (state.inDeletedText && policy.deletedText)) then text
      else ""

/-- The texts that signals contribute one after the other, the first of them in a state. -/
def contributions (context : Context) : State → List (Policy × Signal) → String
  | _, [] => ""
  | state, (policy, signal) :: rest =>
      contribution context policy state signal ++
        contributions context (step context policy state signal).state rest

/-! ## One signal -/

/-- What an outcome reports or leaves open is what was open before, with a text after it. -/
def Outcome.Adds (outcome : Outcome) (before text : String) : Prop :=
  runText outcome.events ++ outcome.state.buffer = before ++ text

variable (context : Context) (policy : Policy) (state : State)

theorem startText_eq (inFormat : Bool) (space : Option String) (name : String) :
    startText inFormat name = (Kind.of space name).startText inFormat := by
  have silent : Tag.ofName? name = none → startText inFormat name = "" := by
    intro unknown
    unfold startText
    split <;> first | rfl | cases unknown
  unfold Kind.of
  cases branch : Branch.of? space name with
  | some found => exact silent (Branch.ofName?_of_of? branch)
  | none =>
      cases found : Tag.ofName? name with
      | none => exact silent found
      | some tag =>
          obtain rfl := Tag.name_of_ofName? found
          cases tag with
          | edit kind => cases kind <;> rfl
          | _ => rfl

theorem buffer_write_if (keep : Bool) (text : String) :
    (if keep then state.write text else state).buffer =
      state.buffer ++ if keep then text else "" := by
  cases keep <;> simp [State.write]

theorem endTag_adds (tag : Tag) : (endTag context state tag).Adds state.buffer "" := by
  cases tag <;> simp [endTag, endPicture, Outcome.Adds, Event.runText]

theorem startKind_adds (attributes : Markup.Attributes) (kind : Kind) :
    (startKind context attributes state kind).Adds state.buffer
      (kind.startText state.inParagraphFormat) := by
  have silent : runText (startKind context attributes state kind).events = "" :=
    runText_eq_empty fun _ member => (kind_of_mem_startKind member).1
  rw [Outcome.Adds, silent, state_startKind, String.empty_append]
  rfl

theorem start_adds (space : Option String) (name : String) (attributes : Markup.Attributes) :
    (start context state space name attributes).Adds state.buffer
      (contribution context policy state (.start space name attributes)) := by
  simp only [contribution, startText_eq state.inParagraphFormat space name]
  cases hidden : (state.counting (Kind.of space name)).gated context with
  | true =>
      rw [start_of_gated attributes hidden]
      cases kind : Kind.of space name with
      | branch branch =>
          cases branch <;>
            simp [Outcome.Adds, State.counting, State.openBranch, Kind.startText]
      | content tag | other =>
          rw [kind] at hidden
          have gated : state.gated context = true := hidden
          simp [Outcome.Adds, State.counting, gated]
  | false =>
      rw [State.gated_counting, Bool.or_eq_false_iff] at hidden
      have added := startKind_adds context { state with paragraphPending := false } attributes
        (Kind.of space name)
      have silent : runText (state.announcement (Kind.of space name)) = "" := by
        unfold State.announcement
        split <;> simp [Event.runText]
      rw [start_of_shown attributes hidden.2 hidden.1]
      simpa [Outcome.Adds, hidden.1, silent] using added

theorem finish_adds (space : Option String) (name : String) :
    (finish context state space name).Adds state.buffer "" := by
  unfold finish
  split
  · cases ‹Branch› <;> simp [Outcome.Adds, State.closeBranch]
  · split
    · simp [Outcome.Adds]
    · split
      · simp [Outcome.Adds]
      · exact endTag_adds context state _

theorem keepsText_eq :
    keepsText policy state =
      ((state.inText && state.edit != .moveFrom) ||
        (state.inText && state.edit == .moveFrom && policy.moveFromText) ||
          (!state.inText && state.edit == .delete && policy.deletedText)) := by
  unfold keepsText
  cases state.inText <;> cases state.edit <;> cases policy.moveFromText <;> rfl

/-- One signal adds its contribution, be it to the runs it reports or to the run in the making. -/
theorem step_adds (signal : Signal) :
    (step context policy state signal).Adds state.buffer
      (contribution context policy state signal) := by
  cases signal with
  | start space name attributes => exact start_adds context policy state space name attributes
  | finish space name => exact finish_adds context state space name
  | text text =>
      simp only [step, contribution, ← keepsText_eq, Outcome.Adds, runText_nil, String.empty_append]
      exact buffer_write_if state _ text
  | blank text =>
      simp only [step, contribution, Outcome.Adds, runText_nil, String.empty_append]
      exact buffer_write_if state _ text

/-! ## Sequences of signals -/

/-- Text conservation: what runs have been reported, followed by the run in the making, is what
there was before, followed by the contributions of the signals in their order. -/
theorem runText_signals (session : Session) (sequence : List (Policy × Signal)) :
    runText (session.signals context sequence).events.toList ++
        (session.signals context sequence).state.buffer =
      runText session.events.toList ++ session.state.buffer ++
        contributions context session.state sequence := by
  induction sequence generalizing session with
  | nil => simp [contributions]
  | cons first rest ih =>
      obtain ⟨policy, signal⟩ := first
      have added : runText (step context policy session.state signal).events ++
          (step context policy session.state signal).state.buffer =
            session.state.buffer ++ contribution context policy session.state signal :=
        step_adds context policy session.state signal
      calc
        _ = runText (session.signal context policy signal).events.toList ++
              (session.signal context policy signal).state.buffer ++
                contributions context (session.signal context policy signal).state rest :=
            ih (session.signal context policy signal)
        _ = runText session.events.toList ++
              (runText (step context policy session.state signal).events ++
                (step context policy session.state signal).state.buffer) ++
                  contributions context (step context policy session.state signal).state rest := by
            simp [Session.signal, Session.take, String.append_assoc]
        _ = _ := by
            rw [added]
            simp [contributions, String.append_assoc]

end Body

end WordStream

import Mathlib.Data.List.Induction
import WordStream.Proofs.Body.Heading
import WordStream.Proofs.Body.Passage
import WordStream.Proofs.Body.RunFormats

/-!
# Where formatting ends

Formatting that was given for one run or paragraph never reaches another, whatever signals come and however badly
they are nested. Outside of runs no formatting of runs is kept, outside of paragraph formatting none of
paragraphs, and a run that is reported takes its formatting along.
-/

set_option autoImplicit false

namespace WordStream

/-- Whether a format has what elements of a tag switch. -/
def RunFormat.has (format : RunFormat) : Body.Tag → Bool
  | .bold => format.bold
  | .italic => format.italic
  | _ => false

theorem RunFormat.has_empty (tag : Body.Tag) : RunFormat.has {} tag = false := by
  cases tag <;> rfl

namespace Body

open Markup (Attributes)

variable {context : Context} {policy : Policy} {state : State} {signal : Signal}

/-! ## What is kept -/

/-- No formatting is kept but where it belongs. -/
structure State.Confined (state : State) : Prop where
  run : state.inRun = false → state.runFormat = {}
  paragraph : state.inParagraphFormat = false → state.paragraphFormat = {}

theorem State.Confined.startKind (confined : state.Confined) (attributes : Attributes) (kind : Kind) :
    (startKind context attributes { state with paragraphPending := false } kind).state.Confined where
  run := by
    have plain := @Formatting.plain_opened state.formatting confined.run attributes kind
    rw [← startKind_formatting] at plain
    exact plain
  paragraph := by
    have plain := @ParagraphProperties.plain_opened state.paragraphProperties confined.paragraph
      attributes kind
    rw [← startKind_paragraphProperties] at plain
    exact plain

theorem State.Confined.finishKind (confined : state.Confined) (kind : Kind) :
    (finishKind context state kind).state.Confined where
  run := by
    have plain := @Formatting.plain_closed state.formatting confined.run kind
    rw [← finishKind_formatting] at plain
    exact plain
  paragraph := by
    have plain := @ParagraphProperties.plain_closed state.paragraphProperties confined.paragraph kind
    rw [← finishKind_paragraphProperties] at plain
    exact plain

theorem State.Confined.step (confined : state.Confined) :
    (step context policy state signal).state.Confined := by
  have passage := step_passage context policy state signal
  generalize Body.step context policy state signal = outcome at passage
  cases passage with
  | @counted space name attributes behind =>
      obtain ⟨choices, fallbacks, counted⟩ := state.exists_counting (Kind.of space name)
      rw [counted]
      exact ⟨confined.run, confined.paragraph⟩
  | opened attributes shown ungated => exact confined.startKind attributes _
  | @discounted space name behind =>
      obtain ⟨choices, fallbacks, counted⟩ := state.exists_discounting (Kind.of space name)
      rw [counted]
      exact ⟨confined.run, confined.paragraph⟩
  | closed ungated => exact confined.finishKind _
  | kept tells ungated => exact ⟨confined.run, confined.paragraph⟩
  | dropped tells => exact confined

/-! ## What is reported -/

/-- Whether an event has the formatting that was kept for what it reports. A run takes it along. -/
def TakesFormat (before after : State) : Event → Prop
  | .run format _ => format = before.runFormat ∧ after.runFormat = {}
  | .paragraphStart format => format = before.paragraphFormat
  | _ => True

/-- The start of an element reports no runs, and past the announcement no paragraphs. -/
theorem startKind_takesFormat {opened before after : State} {attributes : Attributes} {kind : Kind}
    {event : Event} (member : event ∈ (startKind context attributes opened kind).events) :
    TakesFormat before after event := by
  obtain ⟨noRun, noParagraph⟩ := kind_of_mem_startKind member
  cases event with
  | run => exact absurd rfl noRun
  | paragraphStart => exact absurd rfl noParagraph
  | _ => trivial

theorem finishKind_takesFormat {kind : Kind} {event : Event}
    (member : event ∈ (finishKind context state kind).events) :
    TakesFormat state (finishKind context state kind).state event := by
  cases kind with
  | branch branch => cases branch <;> cases member
  | other => cases member
  | content tag =>
      cases tag with
      | run =>
          rw [List.mem_singleton.1 member]
          exact ⟨rfl, rfl⟩
      | paragraphFormat =>
          rw [List.mem_singleton.1 member]
          rfl
      | paragraph | table | row | cell | hyperlink | edit | picture | legacyPicture =>
          rw [List.mem_singleton.1 member]
          trivial
      | _ => cases member

theorem State.mem_announcement {kind : Kind} {event : Event}
    (member : event ∈ state.announcement kind) : event = .paragraphStart state.paragraphFormat := by
  unfold State.announcement at member
  split at member
  · exact List.mem_singleton.1 member
  · cases member

theorem step_takesFormat {event : Event}
    (member : event ∈ (step context policy state signal).events) :
    TakesFormat state (step context policy state signal).state event := by
  have passage := step_passage context policy state signal
  generalize step context policy state signal = outcome at passage member
  cases passage with
  | counted attributes behind => cases member
  | opened attributes shown ungated =>
      rcases List.mem_append.1 member with announced | started
      · rw [State.mem_announcement announced]
        rfl
      · exact startKind_takesFormat started
  | discounted behind => cases member
  | closed ungated => exact finishKind_takesFormat member
  | kept tells ungated => cases member
  | dropped tells => cases member

/-! ## What switches formatting -/

namespace Formatting

variable {formatting : Formatting} {tag : Tag}

/-- What is on once an element has begun was on before, or it is what the element switches on within the
formatting of a run. -/
theorem has_opened {attributes : Attributes} {kind : Kind}
    (on : (formatting.opened attributes kind).format.has tag = true) :
    formatting.format.has tag = true ∨
      (kind = .content tag ∧ formatting.inRun = true ∧ formatting.inRunFormat = true ∧
        switchedOn attributes = true) := by
  cases kind with
  | branch | other => exact .inl on
  | content opening =>
      cases opening with
      | bold =>
          rw [opened] at on
          split at on
          · next heard =>
              rw [Bool.and_eq_true] at heard
              cases tag with
              | bold => exact .inr ⟨rfl, heard.1, heard.2, on⟩
              | italic => exact .inl on
              | _ => cases on
          · exact .inl on
      | italic =>
          rw [opened] at on
          split at on
          · next heard =>
              rw [Bool.and_eq_true] at heard
              cases tag with
              | italic => exact .inr ⟨rfl, heard.1, heard.2, on⟩
              | bold => exact .inl on
              | _ => cases on
          · exact .inl on
      | _ => exact .inl on

theorem has_closed {kind : Kind} (on : (formatting.closed kind).format.has tag = true) :
    formatting.format.has tag = true := by
  by_cases ends : kind = .content .run
  · rw [ends] at on
    cases tag <;> cases on
  · rw [closed_format formatting ends] at on
    exact on

end Formatting

/-- Whether a signal switches formatting on: it starts an element for it that says so, in the formatting of a
run and outside of skipped branches. -/
def SwitchesOn (context : Context) (tag : Tag) (state : State) (signal : Signal) : Prop :=
  ∃ (space : Option String) (attributes : Attributes),
    signal = .start space tag.name attributes ∧ state.gated context = false ∧
      state.inRun = true ∧ state.inRunFormat = true ∧ switchedOn attributes = true

/-- What is on after a signal was on before it or was switched on by it, and no run was reported. -/
theorem step_has {tag : Tag}
    (on : (step context policy state signal).state.runFormat.has tag = true) :
    (state.runFormat.has tag = true ∨ SwitchesOn context tag state signal) ∧
      ∀ event ∈ (step context policy state signal).events, event.kind ≠ .run := by
  constructor
  · have passage := step_passage context policy state signal
    generalize step context policy state signal = outcome at passage on
    cases passage with
    | @counted space name attributes behind =>
        obtain ⟨choices, fallbacks, counted⟩ := state.exists_counting (Kind.of space name)
        rw [counted] at on
        exact .inl on
    | @opened space name attributes shown ungated =>
        have kept : (state.formatting.opened attributes (Kind.of space name)).format.has tag = true := by
          rw [← @startKind_formatting context]
          exact on
        rcases Formatting.has_opened kept with before | ⟨kind, running, formatted, switched⟩
        · exact .inl before
        · obtain rfl := Kind.name_of_of kind
          exact .inr ⟨space, attributes, rfl, ungated, running, formatted, switched⟩
    | @discounted space name behind =>
        obtain ⟨choices, fallbacks, counted⟩ := state.exists_discounting (Kind.of space name)
        rw [counted] at on
        exact .inl on
    | @closed space name ungated =>
        have kept : (state.formatting.closed (Kind.of space name)).format.has tag = true := by
          rw [← @finishKind_formatting context]
          exact on
        exact .inl (Formatting.has_closed kept)
    | kept tells ungated => exact .inl on
    | dropped tells => exact .inl on
  · intro event member run
    cases event with
    | run format text =>
        obtain ⟨_, taken⟩ : TakesFormat _ _ _ := step_takesFormat member
        rw [taken, RunFormat.has_empty] at on
        cases on
    | _ => cases run

/-! ## Whole runs -/

/-- Whether formatting was switched on at some point after which no run was reported. -/
def SwitchedSinceRun (context : Context) (tag : Tag) (sequence : List (Policy × Signal)) : Prop :=
  ∃ (before : List (Policy × Signal)) (policy : Policy) (signal : Signal)
    (after : List (Policy × Signal)) (since : List Event),
    sequence = before ++ (policy, signal) :: after ∧
      SwitchesOn context tag (Session.signals context {} before).state signal ∧
        (Session.signals context {} sequence).events =
          (Session.signals context {} before).events ++ since ∧
            ∀ event ∈ since, event.kind ≠ .run

theorem SwitchedSinceRun.append {tag : Tag} {sequence : List (Policy × Signal)}
    (switched : SwitchedSinceRun context tag sequence)
    (silent : ∀ event ∈
      (step context policy (Session.signals context {} sequence).state signal).events,
        event.kind ≠ .run) :
    SwitchedSinceRun context tag (sequence ++ [(policy, signal)]) := by
  obtain ⟨before, former, switch, after, since, split, switches, events, noRun⟩ := switched
  let later := (step context policy (Session.signals context {} sequence).state signal).events
  refine ⟨before, former, switch, after ++ [(policy, signal)], since ++ later, ?_, switches, ?_, ?_⟩
  · rw [split, List.append_assoc, List.cons_append]
  · have reported : (Session.signals context {} (sequence ++ [(policy, signal)])).events =
        (Session.signals context {} sequence).events ++ later := by
      rw [Session.signals_append]
      rfl
    rw [reported, events]
    apply Array.ext'
    simp
  · intro event member
    exact (List.mem_append.1 member).elim (noRun event) (silent event)

theorem switchedSinceRun_of_has {tag : Tag} {sequence : List (Policy × Signal)}
    (on : (Session.signals context {} sequence).state.runFormat.has tag = true) :
    SwitchedSinceRun context tag sequence := by
  induction sequence using List.reverseRecOn with
  | nil =>
      rw [Session.signals_nil, RunFormat.has_empty] at on
      cases on
  | append_singleton front last ih =>
      obtain ⟨policy, signal⟩ := last
      rw [Session.signals_append] at on
      -- A run in the last signal would have taken what is on along.
      obtain ⟨kept | switches, silent⟩ := step_has on
      · exact (ih kept).append silent
      · refine ⟨front, policy, signal, [], _, rfl, switches, ?_, silent⟩
        rw [Session.signals_append]
        rfl

theorem confined_signals (context : Context) (sequence : List (Policy × Signal)) :
    (Session.signals context {} sequence).state.Confined := by
  induction sequence using List.reverseRecOn with
  | nil => exact ⟨fun _ => rfl, fun _ => rfl⟩
  | append_singleton front last ih =>
      rw [Session.signals_append]
      exact ih.step

/-- Whatever signals come, well nested or not: outside of runs and of paragraph formatting none is kept, so that
a run is bold or italic only if that was switched on since the last one, and a paragraph that is reported outside
of its formatting has none. -/
theorem signals_confine (context : Context) (sequence : List (Policy × Signal)) :
    let reached := (Session.signals context {} sequence).state
    (reached.inRun = false → reached.runFormat = {}) ∧
      (reached.inParagraphFormat = false → reached.paragraphFormat = {}) ∧
        ∀ (policy : Policy) (signal : Signal), ∀ event ∈ (step context policy reached signal).events,
          (∀ format text, event = .run format text →
            (format.bold = true → SwitchedSinceRun context .bold sequence) ∧
              (format.italic = true → SwitchedSinceRun context .italic sequence)) ∧
            (∀ format, event = .paragraphStart format →
              reached.inParagraphFormat = false → format = {}) := by
  intro reached
  have confined : reached.Confined := confined_signals context sequence
  refine ⟨confined.run, confined.paragraph, fun policy signal event member => ?_⟩
  have taken := step_takesFormat member
  constructor
  · rintro format text rfl
    obtain ⟨rfl, _⟩ := taken
    exact ⟨fun bold => switchedSinceRun_of_has bold, fun italic => switchedSinceRun_of_has italic⟩
  · rintro format rfl outside
    exact taken.trans (confined.paragraph outside)

/-- A run that ends inside its formatting, where something bold follows outside of runs, and another that is
bold with the formatting still open. -/
def tornRuns : List (Policy × Signal) :=
  [({}, .start none "r" []), ({}, .start none "rPr" []), ({}, .finish none "r"),
   ({}, .start none "b" []), ({}, .start none "p" []), ({}, .start none "r" []),
   ({}, .start none "b" [])]

theorem signals_tornRuns :
    let halfway := (Session.signals {} {} (tornRuns.take 5)).state
    let reached := (Session.signals {} {} tornRuns).state
    halfway.runFormat = {} ∧
      (step {} {} halfway (.start none "r" [])).events = [.paragraphStart {}] ∧
        (step {} {} reached (.finish none "r")).events = [.run { bold := true } ""] ∧
          SwitchedSinceRun {} .bold tornRuns := by
  intro halfway reached
  obtain ⟨plain, _, halfwayReports⟩ := signals_confine {} (tornRuns.take 5)
  obtain ⟨_, _, reports⟩ := signals_confine {} tornRuns
  have starts : (step {} {} halfway (.start none "r" [])).events =
      [.paragraphStart halfway.paragraphFormat] := by
    decide +kernel
  have format : halfway.paragraphFormat = {} :=
    (halfwayReports {} (.start none "r" []) _ (by rw [starts]; exact List.mem_singleton_self _)).2
      _ rfl (by decide +kernel)
  have ends : (step {} {} reached (.finish none "r")).events = [.run { bold := true } ""] := by
    decide +kernel
  have bold : SwitchedSinceRun {} .bold tornRuns :=
    ((reports {} (.finish none "r") _ (by rw [ends]; exact List.mem_singleton_self _)).1 _ _ rfl).1
      rfl
  exact ⟨plain (by decide +kernel), by rw [starts, format], ends, bold⟩

end Body

end WordStream

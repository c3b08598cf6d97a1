import WordStream.Body.Part
import WordStream.Proofs.Body.Frame
import WordStream.Proofs.Markup.Gathered

/-!
# Text in pieces

A reader may tell a text in pieces, cut wherever it likes. Whether a piece is kept can depend on its
being blank, so the cuts can show. They do not in a seamless state, nor within blanks; in any other
state some text can be cut so that they do.
-/

set_option autoImplicit false

namespace WordStream.Body

open Markup (Call Tree eq_tellText gather tellText)

variable {context : Context} {policy : Policy}

/-! ## States without seams -/

/-- Whether all text is treated alike in a state, blank or not. -/
def Seamless (context : Context) (policy : Policy) (state : State) : Prop :=
  state.gated context = true ∨ state.inText = true ∨ policy.deletedText = false ∨
    (state.edit = .delete ↔ state.inDeletedText = true)

instance (context : Context) (policy : Policy) (state : State) :
    Decidable (Seamless context policy state) :=
  inferInstanceAs (Decidable (_ ∨ _ ∨ _ ∨ _))

theorem keepsContent_of_seamless {state : State} (seamless : Seamless context policy state)
    (ungated : state.gated context = false) (content : String) :
    keepsContent policy state content = keepsText policy state := by
  unfold keepsContent
  cases inside : state.inText with
  | true => simp
  | false =>
      cases blank : Text.isBlankText content with
      | false => simp
      | true =>
          rcases seamless with gated | inText | withheld | same
          · rw [ungated] at gated
            cases gated
          · rw [inside] at inText
            cases inText
          · simp [keepsBlank, keepsText, inside, withheld]
          · have sameFlag : state.inDeletedText = (state.edit == .delete) := by
              rw [Bool.eq_iff_iff, beq_iff_eq]
              exact same.symm
            simp [keepsBlank, keepsText, inside, sameFlag]

/-- Whether a text may be cut in a state without the cut being seen. Blanks always may. -/
def Cuttable (context : Context) (policy : Policy) (state : State) : Call → Prop
  | .data content => content.toList.all Text.isBlank = true ∨ Seamless context policy state
  | .start .. | .finish _ => True

instance (context : Context) (policy : Policy) (state : State) (call : Call) :
    Decidable (Cuttable context policy state call) :=
  match call with
  | .data _ => inferInstanceAs (Decidable (_ ∨ _))
  | .start .. | .finish _ => inferInstanceAs (Decidable True)

/-- Whether every text among calls may be cut where it stands. -/
def AllCuttable (context : Context) (policy : Policy) : Session → List Call → Prop
  | _, [] => True
  | session, call :: rest =>
      Cuttable context policy session.state call ∧
        AllCuttable context policy (session.call context policy call) rest

instance decidableAllCuttable (context : Context) (policy : Policy) :
    (session : Session) → (sequence : List Call) →
      Decidable (AllCuttable context policy session sequence)
  | _, [] => inferInstanceAs (Decidable True)
  | session, call :: rest =>
      have := decidableAllCuttable context policy (session.call context policy call) rest
      inferInstanceAs (Decidable (_ ∧ _))

/-! ## One text -/

@[simp]
theorem State.takes_write (state : State) (written content : String) :
    (state.write written).takes context policy content = state.takes context policy content := rfl

theorem State.buffer_write (state : State) (content : String) :
    (state.write content).buffer = state.buffer ++ content := rfl

@[simp]
theorem State.write_write (state : State) (former latter : String) :
    (state.write former).write latter = state.write (former ++ latter) := by
  simp only [State.write, String.append_assoc]

theorem isBlankText_of_part {part whole : String} (filled : part ≠ "")
    (within : ∀ character ∈ part.toList, character ∈ whole.toList)
    (blank : whole.toList.all Text.isBlank = true) : Text.isBlankText part = true := by
  rw [List.all_eq_true] at blank
  simp only [Text.isBlankText, Bool.and_eq_true, List.all_eq_true]
  refine ⟨by simpa using filled, ?_⟩
  intro character member
  exact blank character (within character member)

theorem takes_part {state : State} {part whole : String} (filled : part ≠ "")
    (within : ∀ character ∈ part.toList, character ∈ whole.toList)
    (cuttable : Cuttable context policy state (.data whole)) :
    state.takes context policy part = state.takes context policy whole := by
  rcases cuttable with blank | seamless
  · have filledWhole : whole ≠ "" := by
      rintro rfl
      obtain ⟨character, rest, told⟩ := List.exists_cons_of_ne_nil
        (mt String.toList_eq_nil_iff.1 filled)
      have member := within character (told ▸ List.mem_cons_self)
      cases member
    have partBlank := isBlankText_of_part filled within blank
    have wholeBlank := isBlankText_of_part filledWhole (fun _ member => member) blank
    simp only [State.takes, keepsContent, partBlank, wholeBlank]
  · cases gated : state.gated context with
    | true => simp [State.takes, gated]
    | false =>
        simp only [State.takes, keepsContent_of_seamless seamless gated]

theorem Session.call_data_empty (session : Session) :
    session.call context policy (.data "") = session := by
  simp [Session.call_data, State.write]

theorem Session.call_data_append (session : Session) {former latter : String}
    (cuttable : Cuttable context policy session.state (.data (former ++ latter))) :
    session.call context policy (.data (former ++ latter)) =
      (session.call context policy (.data former)).call context policy (.data latter) := by
  by_cases formerFilled : former = ""
  · rw [formerFilled, Session.call_data_empty, String.empty_append]
  by_cases latterFilled : latter = ""
  · rw [latterFilled, Session.call_data_empty, String.append_empty]
  have formerWithin : ∀ character ∈ former.toList, character ∈ (former ++ latter).toList := by
    intro character member
    rw [String.toList_append]
    exact List.mem_append_left _ member
  have latterWithin : ∀ character ∈ latter.toList, character ∈ (former ++ latter).toList := by
    intro character member
    rw [String.toList_append]
    exact List.mem_append_right _ member
  have formerTaken := takes_part formerFilled formerWithin cuttable
  have latterTaken := takes_part latterFilled latterWithin cuttable
  simp only [Session.call_data, formerTaken]
  cases taken : session.state.takes context policy (former ++ latter) with
  | true => simp only [if_true, State.takes_write, latterTaken, taken, State.write_write]
  | false => simp [latterTaken, taken]

theorem Session.seamless_call_data (session : Session) (content : String)
    (seamless : Seamless context policy session.state) :
    Seamless context policy (session.call context policy (.data content)).state := by
  rw [Session.call_data]
  cases session.state.takes context policy content <;> exact seamless

theorem Cuttable.latter {session : Session} {former latter : String}
    (cuttable : Cuttable context policy session.state (.data (former ++ latter))) :
    Cuttable context policy (session.call context policy (.data former)).state (.data latter) := by
  refine cuttable.imp ?_ (session.seamless_call_data former)
  intro blank
  simp only [String.toList_append, List.all_append, Bool.and_eq_true] at blank
  exact blank.2

/-! ## Many pieces -/

-- The first piece leaves the rest as cuttable as it was, since it changes the buffer only.
theorem Session.calls_pieces (pieces : List String) (session : Session)
    (cuttable : Cuttable context policy session.state (.data (String.join pieces))) :
    session.calls context policy (pieces.map .data) =
      session.call context policy (.data (String.join pieces)) := by
  induction pieces generalizing session with
  | nil => exact session.call_data_empty.symm
  | cons piece pieces ih =>
      rw [String.join_cons] at cuttable ⊢
      rw [List.map_cons, Session.calls_cons, ih _ cuttable.latter,
        Session.call_data_append session cuttable]

/-- With a seam it shows in what is kept whether a blank is told with the text before it. -/
theorem buffer_ne_of_not_seamless {session : Session}
    (seam : ¬ Seamless context policy session.state) :
    (session.calls context policy [.data "x", .data " "]).state.buffer ≠
      (session.call context policy (.data "x ")).state.buffer := by
  simp only [Seamless, not_or, Bool.not_eq_true, Bool.not_eq_false] at seam
  obtain ⟨ungated, outside, wanted, differ⟩ := seam
  have textTaken : ∀ content : String, Text.isBlankText content = false →
      session.state.takes context policy content = (session.state.edit == .delete) := by
    intro content filled
    simp [State.takes, keepsContent, keepsText, ungated, outside, wanted, filled]
  have blankTaken : session.state.takes context policy " " = session.state.inDeletedText := by
    simp [State.takes, keepsContent, keepsBlank, ungated, outside, wanted,
      show Text.isBlankText " " = true from by decide]
  have letterTaken := textTaken "x" (by decide)
  have bothTaken := textTaken "x " (by decide)
  simp only [Session.calls_cons, Session.calls_nil, Session.call_data, letterTaken, bothTaken]
  cases deleting : session.state.edit == .delete with
  | true =>
      have unmarked : session.state.inDeletedText = false := by
        simpa [eq_of_beq deleting] using differ
      simp only [if_true, State.takes_write, blankTaken, unmarked, Bool.false_eq_true, if_false,
        State.buffer_write, ne_eq, String.append_right_inj]
      decide
  | false =>
      have marked : session.state.inDeletedText = true := by
        simpa [ne_of_beq_false deleting] using differ
      simp [blankTaken, marked, State.buffer_write]

/-! ## All calls -/

theorem AllCuttable.of_tellText {content : String} {sequence : List Call} {session : Session}
    (cuttable : AllCuttable context policy session (tellText content sequence)) :
    AllCuttable context policy (session.call context policy (.data content)) sequence ∧
      session.calls context policy (tellText content sequence) =
        (session.call context policy (.data content)).calls context policy sequence := by
  rcases eq_tellText content sequence with ⟨more, rest, rfl, together⟩ | ⟨rfl, alone⟩ | alone
  · rw [together] at cuttable ⊢
    obtain ⟨first, remain⟩ := cuttable
    rw [session.call_data_append first] at remain
    refine ⟨⟨first.latter, remain⟩, ?_⟩
    rw [Session.calls_cons, Session.calls_cons, session.call_data_append first]
  · rw [alone] at cuttable ⊢
    rw [Session.call_data_empty]
    exact ⟨cuttable, rfl⟩
  · rw [alone] at cuttable ⊢
    exact ⟨cuttable.2, rfl⟩

/-- What comes of calls does not depend on how the reader has cut the texts that may be cut. -/
theorem calls_gather {sequence : List Call} {session : Session}
    (cuttable : AllCuttable context policy session (gather sequence)) :
    session.calls context policy (gather sequence) = session.calls context policy sequence := by
  induction sequence generalizing session with
  | nil => rfl
  | cons call rest ih =>
      cases call with
      | start tag attributes => exact ih cuttable.2
      | finish tag => exact ih cuttable.2
      | data content =>
          obtain ⟨remains, told⟩ := cuttable.of_tellText
          rw [gather, told, ih remains, Session.calls_cons]

/-- In a seamless state a text may be told in any pieces, and only there may every text be. Where the
texts of a tree may be cut, they may be cut in any way, by the size of the chunks or otherwise. -/
theorem calls_of_cut_texts (parser : Markup.Parser) (context : Context) (policy : Policy) :
    (∀ session : Session, Seamless context policy session.state → ∀ pieces : List String,
        session.calls context policy (pieces.map .data) =
          session.call context policy (.data (String.join pieces))) ∧
      (∀ session : Session, ¬ Seamless context policy session.state → ∃ former latter : String,
        (session.calls context policy [.data former, .data latter]).state.buffer ≠
          (session.call context policy (.data (former ++ latter))).state.buffer) ∧
      ∀ tree : Tree, AllCuttable context policy {} (gather tree.calls) → ∀ told : List Call,
        gather told = gather tree.calls →
          Session.calls context policy {} told = Session.calls context policy {} tree.calls ∧
            ∀ chunks : List ByteArray,
              parser.read? chunks = some told →
                Session.ofChunks? parser context policy chunks =
                  some (Session.calls context policy {} tree.calls) := by
  refine ⟨?_, ?_, ?_⟩
  · intro session seamless pieces
    exact session.calls_pieces pieces (.inr seamless)
  · intro session seam
    exact ⟨"x", " ", buffer_ne_of_not_seamless seam⟩
  · intro tree cuttable told sameTexts
    have same : Session.calls context policy {} told = Session.calls context policy {} tree.calls := by
      rw [← calls_gather cuttable, ← sameTexts, calls_gather (sameTexts ▸ cuttable)]
    refine ⟨same, ?_⟩
    intro chunks read
    rw [Session.ofChunks?, read, Option.map_some, same]

/-- A paragraph with a deleted text and a new one. -/
def correctedText : Tree :=
  .element "p" []
    [.element "del" [] [.element "r" [] [.element "delText" [] [.text "old & odd"]]],
     .text "\n ",
     .element "r" [] [.element "t" [] [.text " new"]]]

/-- Chunks of seven bytes that tell the paragraph, the deleted text in three pieces. -/
def correctedChunks : List ByteArray :=
  Delivery.cut 7 <| String.toUTF8
    "<p><del><r><delText>old &amp; odd</delText></r></del>\n <r><t> new</t></r></p>"

theorem calls_correctedText :
    Session.calls {} { deletedText := true } { state := { inText := true } }
          [.data " ", .data "new"] =
        Session.call {} { deletedText := true } { state := { inText := true } } (.data " new") ∧
      (∃ former latter : String,
        (Session.calls {} { deletedText := true } { state := { edit := .delete } }
            [.data former, .data latter]).state.buffer ≠
          (Session.call {} { deletedText := true } { state := { edit := .delete } }
            (.data (former ++ latter))).state.buffer) ∧
      Session.ofChunks? .standard {} { deletedText := true } correctedChunks =
        some (Session.calls {} { deletedText := true } {} correctedText.calls) := by
  obtain ⟨seamless, seam, trees⟩ := calls_of_cut_texts .standard {} { deletedText := true }
  have cuttable : AllCuttable {} { deletedText := true } {} (gather correctedText.calls) := by
    decide +kernel
  have read : (Markup.Parser.standard.read? correctedChunks).map gather =
      some (gather correctedText.calls) := by decide +kernel
  obtain ⟨told, found, sameTexts⟩ := Option.map_eq_some_iff.1 read
  refine ⟨seamless { state := { inText := true } } (by decide) [" ", "new"], ?_, ?_⟩
  · exact seam { state := { edit := .delete } } (by decide)
  · exact (trees correctedText cuttable told sameTexts).2 correctedChunks found

end WordStream.Body

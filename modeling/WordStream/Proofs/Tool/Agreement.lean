import WordStream.Proofs.Body.Replay
import WordStream.Tool

/-!
# The tools agree

The text tool and the event tool come to their policies in two ways and work for two sinks. Asked for
the same part with the same flags they succeed together, and the text is that of the events; where
they fail they fail for one cause.
-/

set_option autoImplicit false

namespace WordStream

open Body (Context Rendition Session)
open Markup (Call)

namespace Request

/-- A request whose flags, where it has them, are booleans. -/
def ofFlags (source : Input.Source) (part : String) (deletedText moveFromText : Option Bool) :
    Request where
  source
  part
  deletedText := deletedText.map .boolean
  moveFromText := moveFromText.map .boolean

variable {source : Input.Source} {part : String} {deletedText moveFromText : Option Bool}

/-- Booleans are read as what they are, so that their reading is never rejected. -/
theorem settings_ofFlags :
    (ofFlags source part deletedText moveFromText).settings =
      .ok { Settings.standard with
        policy := (ofFlags source part deletedText moveFromText).policy } := by
  cases deletedText with
  | none =>
      cases moveFromText with
      | none => rfl
      | some moveFromText => cases moveFromText <;> rfl
  | some deletedText =>
      cases moveFromText with
      | none => cases deletedText <;> rfl
      | some moveFromText => cases deletedText <;> cases moveFromText <;> rfl

end Request

/-! ## One part for two sinks -/

section Replay

variable {Store : Type} {policy : Policy} {sink : Sink Store}

theorem Package.renderPart_eq_replay (settled : ∀ store, sink.policy store = policy)
    (settings : Settings) (store : Store) (package : Package) (part : String) :
    renderPart settings sink store package part =
      (renderPart settings (.recorder policy) #[] package part).map (Rendition.replay sink store)
        id := by
  unfold renderPart
  cases openPart package part with
  | error cause => rfl
  | ok opened =>
      dsimp only
      rw [Rendition.calls_eq_replay settled]
      rfl

/-- For a recorder, the rendition of a part is the session that translates it. -/
theorem Package.renderPart_recorder (policy : Policy) (settings : Settings) (package : Package) (part : String) :
    Session.recorded <$> translatePart settings policy package part =
      match renderPart settings (.recorder policy) #[] package part with
      | (rendition, none) => .ok rendition
      | (_, some cause) => .error cause := by
  unfold renderPart translatePart partCalls
  cases openPart package part with
  | error cause => rfl
  | ok opened =>
      simp only [bind, Except.bind]
      cases readOpened settings package part opened.2 with
      | mk told failure =>
          cases failure with
          | none =>
              exact congrArg Except.ok
                (Session.calls_recorded (settings.context opened.1.get?) policy {} told).symm
          | some cause => rfl

theorem Request.render_eq_replay (settled : ∀ store, sink.policy store = policy)
    (request : Request) (libraries : Libraries) (settings : Settings) (store : Store)
    (bytes : ByteArray) :
    request.render libraries settings sink store bytes =
      (fun found => (found.1, found.2.replay sink store)) <$>
        request.render libraries settings (.recorder policy) #[] bytes := by
  unfold render
  rw [map_bind]
  refine bind_congr fun package => ?_
  rw [map_bind]
  refine bind_congr fun part => ?_
  rw [Package.renderPart_eq_replay settled]
  cases Package.renderPart settings (.recorder policy) #[] package part with
  | mk rendition failure => cases failure <;> rfl

/-- A part is read alike whatever the settings say of the policy, which a rendition asks of its sink. -/
theorem Request.render_withPolicy (request : Request) (settings : Settings) (policy : Policy)
    (libraries : Libraries) (sink : Sink Store) (store : Store) (bytes : ByteArray) :
    request.render libraries { settings with policy } sink store bytes =
      request.render libraries settings sink store bytes := rfl

end Replay

/-! ## One request for two tools -/

namespace Request

theorem text_eq_replay (request : Request) (libraries : Libraries) (files : Input.Files)
    (settings : request.settings = .ok { Settings.standard with policy := request.policy }) :
    request.text libraries files =
      (fun found => (found.1, (PlainText.ofEvents found.2).text)) <$>
        request.events libraries files := by
  unfold text events
  rw [map_bind]
  refine bind_congr fun bytes => ?_
  have settled : ∀ store, (Sink.plainText request.policy).policy store = request.policy :=
    fun _ => rfl
  have chosen : request.settings = pure { Settings.standard with policy := request.policy } :=
    settings
  have unasked := render_withPolicy request .standard request.policy libraries
    (.recorder request.policy) #[] bytes
  rw [chosen, pure_bind, render_eq_replay settled]
  simp only [unasked, bind_map_left, map_bind, map_pure, Sink.addAll_plainText, Rendition.replay]

/-- The events that the event tool finds are those of the session that translates the part. -/
theorem events_eq_translatePart (request : Request) (libraries : Libraries) (files : Input.Files) :
    request.events libraries files = do
      let bytes ← request.bytes files
      let settings ← request.settings
      let package ← Package.ofBytes libraries bytes
      let part ← request.partIn package
      let session ← Package.translatePart settings settings.policy package part
      return (part, session.events) := by
  unfold events render
  refine bind_congr fun bytes => bind_congr fun settings => ?_
  rw [bind_assoc]
  refine bind_congr fun package => ?_
  rw [bind_assoc]
  refine bind_congr fun part => ?_
  have recorded := Package.renderPart_recorder settings.policy settings package part
  cases translated : Package.translatePart settings settings.policy package part with
  | error cause =>
      rw [translated] at recorded
      cases rendered : Package.renderPart settings (.recorder settings.policy) #[] package part with
      | mk rendition failure =>
          cases failure with
          | none => rw [rendered] at recorded; cases recorded
          | some other => rw [rendered] at recorded; cases recorded; rfl
  | ok session =>
      rw [translated] at recorded
      cases rendered : Package.renderPart settings (.recorder settings.policy) #[] package part with
      | mk rendition failure =>
          cases failure with
          | none => rw [rendered] at recorded; cases recorded; rfl
          | some other => rw [rendered] at recorded; cases recorded

end Request

/-- A failure that is reported is worded alike by all tools, but for the tool's name and the example of
its use. -/
theorem ToolFailure.message_eq (tool : Tool) (cause : Failure) :
    message { tool := tool.name, cause } =
      if cause.isReported then
        tool.name ++ " error: " ++ cause.message ++ "\n  Example: " ++ tool.usage
      else cause.message := by
  have known : Tool.ofName? tool.name = some tool := by
    cases tool <;> decide
  rw [message, known]

/-- Asked for the same part with the same flags, the text tool and the event tool both find it, and the
text is that of the events told again in their order, or both fail for one cause. What a part is
translated to for a plain text is likewise what its recorded events make. -/
theorem answer_text_eq_replay (libraries : Libraries) (files : Input.Files)
    (source : Input.Source) (part : String) (deletedText moveFromText : Option Bool) :
    let request := Request.ofFlags source part deletedText moveFromText
    ((∃ (found : String) (events : Array Event),
          Tool.events.answer libraries files request = .ok (.events found events) ∧
            Tool.text.answer libraries files request = .ok (.text found (PlainText.ofEvents events).text)) ∨
        ∃ cause : Failure,
          Tool.events.answer libraries files request = .error { tool := Tool.events.name, cause } ∧
            Tool.text.answer libraries files request = .error { tool := Tool.text.name, cause } ∧
              ∀ tool : Tool, ToolFailure.message { tool := tool.name, cause } =
                if cause.isReported then
                  tool.name ++ " error: " ++ cause.message ++ "\n  Example: " ++ tool.usage
                else cause.message) ∧
      ∀ (context : Context) (policy : Policy) (chunks : List ByteArray),
        Rendition.ofChunks? libraries.parser context (.plainText policy) {} chunks =
          (Rendition.ofChunks? libraries.parser context (.recorder policy) #[] chunks).map fun recorded =>
            { state := recorded.state, elements := recorded.elements,
              store := PlainText.ofEvents recorded.store, badName := recorded.badName } := by
  intro request
  have replayed := request.text_eq_replay libraries files Request.settings_ofFlags
  constructor
  · cases told : request.events libraries files with
    | error cause =>
        rw [told] at replayed
        refine .inr ⟨cause, ?_, ?_, fun tool => ToolFailure.message_eq tool cause⟩
        · rw [Tool.answer, told]
          rfl
        · rw [Tool.answer, replayed]
          rfl
    | ok found =>
        obtain ⟨name, events⟩ := found
        rw [told] at replayed
        refine .inl ⟨name, events, ?_, ?_⟩
        · rw [Tool.answer, told]
          rfl
        · rw [Tool.answer, replayed]
          rfl
  · intro context policy chunks
    have settled : ∀ store, (Sink.plainText policy).policy store = policy := fun _ => rfl
    rw [Rendition.ofChunks?_eq_replay settled]
    congr 1
    funext recorded
    rw [Rendition.replay, Sink.addAll_plainText]

end WordStream

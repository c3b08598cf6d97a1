import WordStream.Proofs.Markup.Grammar
import WordStream.Proofs.Markup.Finishing

/-!
# What a reading leaves as it was noted

A declaration is read without a fault and costs nothing. Only entities and attributes with a default cost something, so
that a document without a document type costs nothing.
-/

set_option autoImplicit false
set_option synthInstance.maxSize 1000

namespace WordStream.Markup

variable {α β Note : Type} {note : Record → Note}

namespace Reader

/-- Whether a reader leaves what a record notes as it was. -/
class Keeps (note : Record → Note) (reader : Reader α) : Prop where
  kept : ∀ {record value later}, reader record = some (value, later) → note later = note record

instance (value : α) : Keeps note (pure value : Reader α) where
  kept read := by
    cases read
    rfl

instance : Keeps note (failure : Reader α) where
  kept := nofun

instance {first : Reader α} {next : α → Reader β} [one : Keeps note first]
    [other : ∀ value, Keeps note (next value)] : Keeps note (first >>= next) where
  kept read := by
    obtain ⟨value, between, readFirst, readNext⟩ := bind_eq_some_iff.1 read
    exact ((other value).kept readNext).trans (one.kept readFirst)

instance {condition : Prop} [Decidable condition] {first second : Reader α} [Keeps note first]
    [Keeps note second] : Keeps note (if condition then first else second) := by
  split <;> infer_instance

instance {condition : Prop} [Decidable condition] : Keeps note (guard condition : Reader Unit) := by
  unfold guard
  infer_instance

instance (found : Option α) : Keeps note (liftM found : Reader α) where
  kept read := by
    cases found with
    | none => cases read
    | some value =>
        cases read
        rfl

instance {f : α → Reader β} [∀ item, Keeps note (f item)] (items : List α) :
    Keeps note (items.mapM f) := by
  induction items with
  | nil => exact inferInstanceAs (Keeps note (pure []))
  | cons item items ih =>
      rw [List.mapM_cons]
      infer_instance

instance {f : α → Reader PUnit} [∀ item, Keeps note (f item)] (items : List α) :
    Keeps note (items.forM f) := by
  induction items with
  | nil => exact inferInstanceAs (Keeps note (pure ()))
  | cons item items ih => exact inferInstanceAs (Keeps note (f item >>= fun _ => items.forM f))

instance : Keeps Record.spent warn where
  kept read := by
    cases read
    rfl

instance : Keeps Record.faults warn where
  kept read := by
    cases read
    rfl

instance : Keeps Record.spent fault where
  kept read := by
    cases read
    rfl

instance (condition : Bool) : Keeps Record.spent (require condition) := by
  unfold require
  infer_instance

end Reader

namespace Scan

/-- Whether a scan leaves what a record notes as it was. -/
class Keeps (note : Record → Note) (scan : Scan α) : Prop where
  kept : ∀ {text record value left later},
    scan text record = some ((value, left), later) → note later = note record

instance (value : α) : Keeps note (pure value : Scan α) where
  kept taken := by
    cases taken
    rfl

instance : Keeps note (failure : Scan α) where
  kept taken := nomatch taken

instance {reader : Reader α} [keeps : Reader.Keeps note reader] : Keeps note (liftM reader : Scan α) where
  kept taken := by
    rw [liftM_run] at taken
    obtain ⟨_, read, same⟩ := Option.map_eq_some_iff.1 taken
    cases same
    exact keeps.kept read

instance (found : Option α) : Keeps note (liftM found : Scan α) :=
  inferInstanceAs (Keeps note (liftM (liftM found : Reader α)))

instance {first : Scan α} {next : α → Scan β} [one : Keeps note first]
    [other : ∀ value, Keeps note (next value)] : Keeps note (first >>= next) where
  kept taken := by
    obtain ⟨value, _, _, takenFirst, takenNext⟩ := bind_eq_some_iff.1 taken
    exact ((other value).kept takenNext).trans (one.kept takenFirst)

instance {condition : Prop} [Decidable condition] {first second : Scan α} [Keeps note first]
    [Keeps note second] : Keeps note (if condition then first else second) := by
  split <;> infer_instance

theorem Keeps.after {first : Scan α} [Keeps note first] {next : α → Scan β}
    (nextKeeps : ∀ value, Keeps note (next value)) : Keeps note (first >>= next) :=
  inferInstance

theorem Keeps.either {test : Scan Bool} [Keeps note test] {first second : Scan α} (one : Keeps note first)
    (other : Keeps note second) : Keeps note (test >>= fun met => if met = true then first else second) :=
  inferInstance

instance {condition : Prop} [Decidable condition] : Keeps note (guard condition : Scan Unit) := by
  unfold guard
  infer_instance

instance {scan : Scan α} {change : α → β} [Keeps note scan] : Keeps note (change <$> scan) :=
  inferInstanceAs (Keeps note (scan >>= fun value => pure (change value)))

instance {scan : Scan α} [Keeps note scan] : Keeps note (discard scan) :=
  inferInstanceAs (Keeps note (scan >>= fun _ => pure ()))

/-! ## What takes characters -/

/-- What does not note anything leaves everything as it was. -/
theorem Keeps.of_run {scan : Scan α} (take : List Char → Option (α × List Char))
    (runs : ∀ text record, scan text record = (take text).map fun result => (result, record)) :
    Keeps note scan where
  kept taken := by
    rw [runs] at taken
    obtain ⟨_, -, same⟩ := Option.map_eq_some_iff.1 taken
    cases same
    rfl

instance : Keeps note rest := .of_run (fun text => some (text, text)) fun _ _ => rfl

instance (mark : String) : Keeps note (at? mark) :=
  inferInstanceAs (Keeps note (rest >>= fun text => pure (dropExact? mark.toList text).isSome))

instance (mark : String) : Keeps note (exact mark) :=
  .of_run (fun text => (dropExact? mark.toList text).map fun left => ((), left)) fun text record => by
    rw [exact_run, Option.map_map]
    rfl

instance (mark : String) : Keeps note (taken mark) :=
  .of_run (fun text => some (takenFrom mark.toList text)) fun _ _ => taken_eq mark

instance (accept : Char → Bool) : Keeps note (takeWhile accept) :=
  .of_run (fun text => some (text.takeWhile accept, text.dropWhile accept)) fun _ _ => takeWhile_run accept

instance (mark : String) : Keeps note (upTo mark) :=
  .of_run (splitAt? mark.toList []) fun _ _ => upTo_run mark

instance : Keeps note someSpaceTaken :=
  inferInstanceAs (Keeps note (takeWhile isSpace >>= fun blanks => pure !blanks.isEmpty))

instance : Keeps note space := inferInstanceAs (Keeps note (discard someSpaceTaken))

instance : Keeps note someSpace := by
  unfold someSpace
  infer_instance

instance : Keeps note name := by
  unfold name
  infer_instance

instance : Keeps note quoted := by
  unfold quoted
  infer_instance

instance {State : Type} {step : State → Scan (Option State)} [∀ state, Keeps note (step state)]
    (characters : List Char) (state : State) : Keeps note (rounds step characters state) := by
  induction characters generalizing state with
  | nil =>
      refine Keeps.after fun told => ?_
      cases told with
      | none => exact inferInstanceAs (Keeps note (pure state))
      | some later => exact inferInstanceAs (Keeps note failure)
  | cons character characters ih =>
      refine Keeps.after fun told => ?_
      cases told with
      | none => exact inferInstanceAs (Keeps note (pure state))
      | some later => exact ih later

instance {State : Type} {step : State → Scan (Option State)} [∀ state, Keeps note (step state)]
    (state : State) : Keeps note (repeating step state) :=
  inferInstanceAs (Keeps note (rest >>= fun characters => rounds step characters state))

end Scan

open Scan

/-! ## Documents without a document type -/

instance : Keeps Record.spent qualifiedName := by
  unfold qualifiedName
  refine Keeps.after fun characters => ?_
  cases QualifiedName.split? characters with
  | some name => exact inferInstanceAs (Keeps Record.spent (pure name))
  | none => infer_instance

instance (name : String) : Reader.Keeps Record.spent (requirePlain name) := by
  unfold requirePlain
  infer_instance

instance (name : String) : Reader.Keeps Record.spent (checkInstruction name) := by
  unfold checkInstruction
  infer_instance

instance : Keeps Record.spent comment := by
  unfold comment
  infer_instance

instance : Keeps Record.spent instruction := by
  unfold instruction
  infer_instance

/-- Whether no entity is declared, and no attribute. -/
class Declarations.Bare (declarations : Declarations) : Prop where
  entities : declarations.entities = []
  rules : declarations.rules = []

variable (declarations : Declarations) [bare : declarations.Bare]

namespace Declarations

instance : Reader.Keeps Record.spent declarations.passOver := by
  unfold passOver
  infer_instance

instance (expand : List Char → Reader (List Char)) (form : ValueForm) (piece : Piece) :
    Reader.Keeps Record.spent (declarations.pieceValue expand form piece) := by
  cases piece with
  | plain character =>
      unfold pieceValue
      infer_instance
  | reference reference =>
      cases reference with
      | code character => exact inferInstanceAs (Reader.Keeps _ (pure _))
      | predefined name character => exact inferInstanceAs (Reader.Keeps _ (pure _))
      | entity name =>
          unfold pieceValue
          rw [bare.entities]
          dsimp only [List.lookup]
          infer_instance

instance (depth : Nat) (form : ValueForm) (literal : List Char) :
    Reader.Keeps Record.spent (declarations.attributeValue depth form literal) := by
  unfold attributeValue literalValue
  infer_instance

end Declarations

instance (qualifier space : String) : Reader.Keeps Record.spent (Scope.checkReference qualifier space) := by
  unfold Scope.checkReference
  infer_instance

instance (spaces : Scope) (qualifier space : String) :
    Reader.Keeps Record.spent (Scope.declare spaces qualifier space) := by
  unfold Scope.declare
  infer_instance

namespace StartTag

instance (depth : Nat) (element : QualifiedName) (done : List Attribute × Scope) :
    Keeps Record.spent (nextAttribute declarations depth element done) := by
  have separated : Keeps Record.spent (separatedAttribute declarations depth element done) := by
    unfold separatedAttribute
    refine .after fun name => .after fun _ => .after fun _ => .after fun _ => .after fun _ => .after fun _ => ?_
    dsimp only
    cases name.declared? with
    | some qualifier => infer_instance
    | none => infer_instance
  rw [nextAttribute_eq]
  infer_instance

instance (depth : Nat) : Keeps Record.spent (scan declarations depth) := by
  unfold scan
  infer_instance

instance (scope : Scope) (met : Met) (faults : Nat) (entries : List Attribute) :
    Reader.Keeps Record.spent (checkNames scope met faults entries) := by
  induction entries generalizing met faults with
  | nil => exact inferInstanceAs (Reader.Keeps _ (pure (met, faults)))
  | cons entry entries ih =>
      unfold checkNames
      dsimp only
      cases scope.ofAttribute? entry.name.qualifier with
      | none => exact ih met faults
      | some space =>
          dsimp only
          cases met.lookup (space, entry.name.localName) <;> infer_instance

instance (outer : Scope) (tag : StartTag) : Reader.Keeps Record.spent (resolve declarations outer tag) := by
  have none : tag.declaredAttributes declarations = [] := by
    rw [declaredAttributes, bare.rules]
    rfl
  unfold resolve
  rw [none]
  unfold addDefaultSpaces addDefaults
  infer_instance

end StartTag

namespace Content

variable (setting : Setting) (progress : Progress)

theorem keeps_startTag [setting.declarations.Bare] (streaming : setting.mode = .streaming) :
    Keeps Record.spent (startTag setting progress) := by
  have waived : (setting.mode = .loading && !setting.inEntity) = false := by
    rw [streaming]
    rfl
  unfold startTag
  refine .after fun _ => .after fun written => .after fun resolved => ?_
  simp only [waived, Bool.false_eq_true, if_false]
  infer_instance

instance (element : Element) (outer : List Element) : Keeps Record.spent (endTag element outer progress) := by
  unfold endTag
  infer_instance

instance : Keeps Record.spent (literalSection progress) := by
  unfold literalSection
  infer_instance

instance (expansion : Expansion) [bare : setting.declarations.Bare] :
    Keeps Record.spent (reference expansion setting progress) := by
  refine .after fun body => .after fun reference => ?_
  cases reference with
  | code character => exact inferInstanceAs (Keeps _ (pure _))
  | predefined name character => exact inferInstanceAs (Keeps _ (pure _))
  | entity name =>
      dsimp only
      rw [bare.entities]
      dsimp only [List.lookup]
      infer_instance

instance (final : Bool) : Keeps Record.spent (stretch final progress) where
  kept taken := by
    rw [stretch_run] at taken
    obtain ⟨_, -, same⟩ := Option.map_eq_some_iff.1 taken
    cases same
    rfl

theorem keeps_nextPart [bare : setting.declarations.Bare] (streaming : setting.mode = .streaming) :
    Keeps Record.spent (nextPart setting progress) := by
  have tag := keeps_startTag setting progress streaming
  unfold nextPart part
  refine .after fun text => ?_
  split
  · infer_instance
  · refine .either ?_ <| .either inferInstance <| .either inferInstance <| .either inferInstance <|
      .either inferInstance <| .either inferInstance inferInstance
    split <;> infer_instance

end Content

namespace Stream

variable {stream later last : Stream}

/-- Whether no document type has been read, and none begins where one may. -/
structure Undoctyped (stream : Stream) : Prop where
  opened : stream.stage ≠ .opening
  outside : stream.stage ≠ .subset
  bare : stream.declarations.Bare
  absent : stream.stage = .prolog → ¬"<!DOCTYPE".toList <:+: stream.text

/-- Whether what is read next costs nothing and is no document type. -/
def Spares (stream : Stream) (read : Option (Option Stream)) : Prop :=
  ∀ later, read = some (some later) → later.Undoctyped ∧ later.record.spent = stream.record.spent

theorem spares_none : stream.Spares none := nofun

theorem spares_waiting : stream.Spares (some none) := nofun

theorem spares_some (undoctyped : later.Undoctyped) (record : later.record = stream.record) :
    stream.Spares (some (some later)) := by
  rintro _ ⟨⟩
  exact ⟨undoctyped, congrArg Record.spent record⟩

theorem Spares.ite {condition : Prop} [Decidable condition] {first second : Option (Option Stream)}
    (whenTrue : condition → stream.Spares first) (whenFalse : ¬condition → stream.Spares second) :
    stream.Spares (if condition then first else second) := by
  split
  · next holds => exact whenTrue holds
  · next fails => exact whenFalse fails

theorem spares_run {α : Type} {scan : Scan α} [keeps : Keeps Record.spent scan] (note : Stream → α → Stream)
    (record : ∀ later value, (note later value).record = later.record)
    (noted : ∀ {value left after}, scan stream.text stream.record = some ((value, left), after) →
      (note { stream with text := left, record := after } value).Undoctyped) :
    stream.Spares ((stream.run scan).map fun found => some (note found.2 found.1)) := by
  intro later read
  obtain ⟨⟨value, between⟩, ran, same⟩ := Option.map_eq_some_iff.1 read
  cases same
  obtain ⟨left, after, taken, rfl⟩ := run_eq_some_iff.1 ran
  exact ⟨noted taken, (congrArg Record.spent (record _ value)).trans (keeps.kept taken)⟩

section Steps

variable (undoctyped : stream.Undoctyped)

include undoctyped

theorem Undoctyped.leave {text : List Char} (suffix : text <:+ stream.text) (record : Record) :
    Undoctyped { stream with text, record } where
  opened := undoctyped.opened
  outside := undoctyped.outside
  bare := undoctyped.bare
  absent prolog held := undoctyped.absent prolog (held.trans suffix.isInfix)

theorem Undoctyped.reach (progress : Progress) : (stream.reach progress).Undoctyped where
  opened := by
    dsimp only [Stream.reach]
    split <;> decide
  outside := by
    dsimp only [Stream.reach]
    split <;> decide
  bare := undoctyped.bare
  absent := by
    dsimp only [Stream.reach]
    split <;> nofun

theorem Undoctyped.skip (front mark : String) (body : Scan Unit) [Keeps Record.spent body]
    [Closing '>' body] : stream.Spares (stream.skip true front mark body) := by
  have closing : Closing '>' (exact front >>= fun _ => body) := inferInstance
  refine Spares.ite (fun _ => spares_run (fun later _ => later) (fun _ _ => rfl) fun taken => ?_)
    fun _ => spares_waiting
  exact undoctyped.leave (closing.suffix taken) _

theorem Undoctyped.advance {scan : Progress → Scan Progress}
    (keeps : Keeps Record.spent (scan stream.progress)) :
    stream.Spares (some <$> stream.advance scan) := by
  rw [some_advance]
  refine spares_run Stream.reach (fun _ _ => rfl) fun {progress left after} _ => ?_
  have bare : Undoctyped { stream with stage := .content, text := left, record := after } :=
    { opened := nofun, outside := nofun, bare := undoctyped.bare, absent := nofun }
  exact bare.reach progress

theorem Undoctyped.startTag : stream.Spares (stream.startTag true) := by
  have bare : stream.setting.declarations.Bare := undoctyped.bare
  have keeps := Content.keeps_startTag stream.setting stream.progress rfl
  unfold Stream.startTag
  split
  · exact Spares.ite (fun _ => undoctyped.advance inferInstance) fun _ => spares_waiting
  · exact Spares.ite (fun _ => spares_none) fun _ => spares_waiting

theorem Undoctyped.part (front : Nat) (mark : String) : stream.Spares (stream.part true front mark) := by
  have bare : stream.setting.declarations.Bare := undoctyped.bare
  have keeps := Content.keeps_nextPart stream.setting stream.progress rfl
  refine Spares.ite (fun _ => undoctyped.advance (.after fun told => ?_)) fun _ => spares_waiting
  cases told with
  | some later => exact inferInstanceAs (Keeps _ (pure later))
  | none => exact inferInstanceAs (Keeps _ failure)

theorem Undoctyped.content : stream.Spares (stream.content true) := by
  refine Spares.ite (fun _ => spares_waiting) fun _ => Spares.ite (fun _ => undoctyped.skip _ _ _) fun _ => ?_
  refine Spares.ite (fun _ => undoctyped.skip _ _ _) fun _ => ?_
  refine Spares.ite (fun _ => undoctyped.part _ _) fun _ => Spares.ite (fun _ => undoctyped.part _ _) fun _ => ?_
  refine Spares.ite (fun _ => undoctyped.startTag) fun _ => Spares.ite (fun _ => undoctyped.part _ _) fun _ => ?_
  exact Spares.ite (fun _ => undoctyped.advance inferInstance) fun _ => spares_waiting

theorem Undoctyped.outsideRoot : stream.Spares (stream.outside true) := by
  refine Spares.ite (fun _ => spares_some ?_ rfl) fun _ => Spares.ite (fun _ => spares_waiting) fun _ => ?_
  · exact undoctyped.leave (List.dropWhile_suffix isSpace) stream.record
  refine Spares.ite (fun _ => undoctyped.skip _ _ _) fun _ => ?_
  refine Spares.ite (fun _ => undoctyped.skip _ _ _) fun _ => ?_
  refine Spares.ite (fun _ => Spares.ite (fun _ => spares_some ?_ rfl) fun _ => spares_none) fun _ => ?_
  · exact { opened := nofun, outside := nofun, bare := undoctyped.bare, absent := nofun }
  refine Spares.ite (fun _ => spares_waiting) fun _ => Spares.ite (fun typed => ?_) fun _ => undoctyped.startTag
  rw [Bool.and_eq_true, decide_eq_true_iff, List.isPrefixOf_iff_prefix] at typed
  exact absurd typed.2.isInfix (undoctyped.absent typed.1)

theorem Undoctyped.step : stream.Spares (stream.step true) := by
  unfold Stream.step
  cases stage : stream.stage with
  | opening => exact absurd stage undoctyped.opened
  | prolog | beforeRoot | epilog => exact undoctyped.outsideRoot
  | subset => exact absurd stage undoctyped.outside
  | content => exact undoctyped.content
  | done => exact spares_waiting

end Steps

/-- A document without a document type costs nothing. -/
theorem Ends.spent_eq (ends : stream.Ends last) (undoctyped : stream.Undoctyped) :
    last.record.spent = stream.record.spent := by
  induction ends with
  | finished => rfl
  | onward read _ ih =>
      obtain ⟨undoctyped, spent⟩ := undoctyped.step _ read
      exact (ih undoctyped).trans spent

end Stream

end WordStream.Markup

import WordStream.Proofs.Body.Refusal

/-!
# The order of attributes

Elements look their attributes up by full names, so that the order of attributes does not matter. The type of
an embedded object alone is looked for in every namespace, and the last one counts: of an object that is said
to be embedded and to be something else the order decides whether it is reported.
-/

set_option autoImplicit false

namespace WordStream.Body

open Markup (Attributes IsUnclosed joinName)

variable {context : Context} {policy : Policy} {state : State} {kind : Kind}
  {attributes others : Attributes}

/-! ## Elements that read full names -/

theorem startKind_of_get? (read : ∀ name, others.get? name = attributes.get? name)
    (plain : kind ≠ .content .oleObject) :
    startKind context others state kind = startKind context attributes state kind := by
  cases kind with
  | branch branch | other => rfl
  | content tag =>
      cases tag with
      | oleObject => exact absurd rfl plain
      | _ =>
          simp only [startKind, startTag, wordAttribute?, integerValue, switchedOn, editDate?,
            linkTarget?, read]

/-! ## Embedded objects -/

theorem startKind_of_named (distinct : (attributes.map Prod.fst).Nodup)
    (named : ∀ entry ∈ attributes, ¬IsUnclosed entry.1) :
    startKind context attributes state (.content .oleObject) =
      { state
        events :=
          if objectType? attributes = some "Embed" then
            [.embeddedObject (attributes.get? (joinName relationshipSpace "id"))]
          else [] } := by
  simp only [startKind, startTag, scanObject?_of_named distinct named]

/-- Whether one attribute says that an object is embedded and another that it is something else. -/
def IsAmbiguous (attributes : Attributes) : Prop :=
  (∃ entry ∈ attributes, givesType entry.1 = true ∧ entry.2 = "Embed") ∧
    ∃ entry ∈ attributes, givesType entry.1 = true ∧ entry.2 ≠ "Embed"

instance (attributes : Attributes) : Decidable (IsAmbiguous attributes) :=
  inferInstanceAs (Decidable (_ ∧ _))

theorem IsAmbiguous.of_perm (same : attributes.Perm others) :
    IsAmbiguous others ↔ IsAmbiguous attributes := by
  simp only [IsAmbiguous, same.mem_iff]

/-- Without ambiguity it does not matter which of the types is looked at. -/
theorem objectType?_eq_embed_iff (agreed : ¬IsAmbiguous attributes) :
    objectType? attributes = some "Embed" ↔
      ∃ entry ∈ attributes, givesType entry.1 = true ∧ entry.2 = "Embed" := by
  constructor
  · exact exists_of_objectType?
  · rintro ⟨entry, member, gives, embeds⟩
    obtain ⟨type, found⟩ := Option.isSome_iff_exists.1 (isSome_objectType? member gives)
    obtain ⟨last, lastMember, lastGives, rfl⟩ := exists_of_objectType? found
    have lastEmbeds : last.2 = "Embed" := by
      refine Decidable.byContradiction fun other => agreed ?_
      exact ⟨⟨entry, member, gives, embeds⟩, last, lastMember, lastGives, other⟩
    rw [found, lastEmbeds]

theorem startKind_of_perm (distinct : (attributes.map Prod.fst).Nodup)
    (same : attributes.Perm others)
    (agreed : kind = .content .oleObject → (∀ entry ∈ attributes, ¬IsUnclosed entry.1) →
      ¬IsAmbiguous attributes) :
    startKind context others state kind = startKind context attributes state kind := by
  have read := Attributes.get?_of_perm distinct same
  by_cases object : kind = .content .oleObject
  · subst object
    by_cases named : ∀ entry ∈ attributes, ¬IsUnclosed entry.1
    · have rearranged : (others.map Prod.fst).Nodup := (same.map Prod.fst).nodup_iff.1 distinct
      have othersNamed : ∀ entry ∈ others, ¬IsUnclosed entry.1 :=
        fun entry member => named entry (same.mem_iff.2 member)
      have types : objectType? others = some "Embed" ↔ objectType? attributes = some "Embed" := by
        have othersAgreed : ¬IsAmbiguous others :=
          fun ambiguous => agreed rfl named ((IsAmbiguous.of_perm same).1 ambiguous)
        rw [objectType?_eq_embed_iff (agreed rfl named), objectType?_eq_embed_iff othersAgreed]
        simp only [same.mem_iff]
      rw [startKind_of_named distinct named, startKind_of_named rearranged othersNamed, read]
      simp only [types]
    · have unclosed : ∃ entry ∈ attributes, IsUnclosed entry.1 := by simpa using named
      have othersUnclosed : ∃ entry ∈ others, IsUnclosed entry.1 := by
        simpa only [same.mem_iff] using unclosed
      rw [startKind_of_unclosed unclosed, startKind_of_unclosed othersUnclosed]
  · exact startKind_of_get? read object

/-- In whatever order the attributes come, the state is the same, and so is whether the start is
refused. -/
theorem startKind_state_of_perm (distinct : (attributes.map Prod.fst).Nodup)
    (same : attributes.Perm others) :
    (startKind context others state kind).state =
        (startKind context attributes state kind).state ∧
      (startKind context others state kind).badName =
        (startKind context attributes state kind).badName := by
  by_cases object : kind = .content .oleObject
  · subst object
    rw [startKind_oleObject_state, startKind_oleObject_state, Bool.eq_iff_iff,
      startKind_badName_iff, startKind_badName_iff]
    simp only [same.mem_iff, and_self]
  · rw [startKind_of_perm distinct same fun found => absurd found object]
    exact ⟨rfl, rfl⟩

/-- An ambiguous object is reported in one order and not in another. -/
theorem IsAmbiguous.exists_perm (ambiguous : IsAmbiguous attributes)
    (distinct : (attributes.map Prod.fst).Nodup)
    (named : ∀ entry ∈ attributes, ¬IsUnclosed entry.1) :
    ∃ others, attributes.Perm others ∧
      (startKind context others state (.content .oleObject)).events ≠
        (startKind context attributes state (.content .oleObject)).events := by
  -- The attribute that is put last decides.
  have last : ∀ entry ∈ attributes, givesType entry.1 = true →
      ∃ others, attributes.Perm others ∧
        ((startKind context others state (.content .oleObject)).events = [] ↔
          entry.2 ≠ "Embed") := by
    intro entry member gives
    have same : attributes.Perm (attributes.erase entry ++ [entry]) :=
      (List.perm_cons_erase member).trans (List.perm_append_singleton _ _).symm
    refine ⟨_, same, ?_⟩
    rw [startKind_of_named ((same.map Prod.fst).nodup_iff.1 distinct)
        fun entry member => named entry (same.mem_iff.2 member),
      objectType?_append_singleton gives]
    by_cases embeds : entry.2 = "Embed" <;> simp [embeds]
  obtain ⟨⟨first, firstMember, firstGives, embeds⟩, second, secondMember, secondGives, other⟩ :=
    ambiguous
  obtain ⟨reporting, reportingSame, reports⟩ := last first firstMember firstGives
  obtain ⟨silent, silentSame, silences⟩ := last second secondMember secondGives
  by_cases silence : (startKind context attributes state (.content .oleObject)).events = []
  · refine ⟨reporting, reportingSame, ?_⟩
    rw [silence]
    exact fun none => reports.1 none embeds
  · refine ⟨silent, silentSame, ?_⟩
    rw [silences.2 other]
    exact Ne.symm silence

/-! ## Starts -/

/-- A start is hidden whatever the attributes, or it is what its kind makes of them. -/
theorem start_hidden_or_shown (context : Context) (state : State) (space : Option String)
    (name : String) :
    (∃ outcome, ∀ given, start context state space name given = outcome) ∨
      ∃ before announced, ∀ given, start context state space name given =
        let outcome := startKind context given before (Kind.of space name)
        { outcome with events := announced ++ outcome.events } := by
  cases hidden : (state.counting (Kind.of space name)).gated context with
  | true => exact .inl ⟨_, fun given => start_of_gated given hidden⟩
  | false =>
      rw [State.gated_counting, Bool.or_eq_false_iff] at hidden
      exact .inr ⟨_, _, fun given => start_of_shown given hidden.2 hidden.1⟩

theorem step_start_congr {space : Option String} {name : String}
    (alike : ∀ state, startKind context others state (Kind.of space name) =
      startKind context attributes state (Kind.of space name)) :
    step context policy state (.start space name others) =
      step context policy state (.start space name attributes) := by
  rw [step, step]
  rcases start_hidden_or_shown context state space name with ⟨_, hidden⟩ | ⟨_, _, shown⟩
  · rw [hidden, hidden]
  · rw [shown, shown, alike]

theorem step_start_state_of_perm {space : Option String} {name : String}
    (distinct : (attributes.map Prod.fst).Nodup) (same : attributes.Perm others) :
    (step context policy state (.start space name others)).state =
        (step context policy state (.start space name attributes)).state ∧
      (step context policy state (.start space name others)).badName =
        (step context policy state (.start space name attributes)).badName := by
  rw [step, step]
  rcases start_hidden_or_shown context state space name with ⟨_, hidden⟩ | ⟨_, _, shown⟩
  · rw [hidden, hidden]
    exact ⟨rfl, rfl⟩
  · rw [shown, shown]
    exact startKind_state_of_perm distinct same

/-- In whatever order an element has its attributes, the state and whether it is refused are the same. The
whole outcome is the same in every order if and only if the element is not an embedded object outside
skipped branches, with parts to all names, that one attribute says to be embedded and another to be something
else. -/
theorem step_start_of_perm (context : Context) (policy : Policy) (state : State)
    (space : Option String) (name : String) {attributes : Attributes}
    (distinct : (attributes.map Prod.fst).Nodup) :
    let outcome (given : Attributes) := step context policy state (.start space name given)
    (∀ others, attributes.Perm others →
        (outcome others).state = (outcome attributes).state ∧
          (outcome others).badName = (outcome attributes).badName) ∧
      ((∀ others, attributes.Perm others → outcome others = outcome attributes) ↔
        ¬(name = "OLEObject" ∧ state.gated context = false ∧
          (∀ entry ∈ attributes, ¬IsUnclosed entry.1) ∧ IsAmbiguous attributes)) := by
  intro outcome
  refine ⟨fun others same => step_start_state_of_perm distinct same, ?_, ?_⟩
  · rintro unordered ⟨rfl, ungated, named, ambiguous⟩
    have object := Kind.of_oleObject space
    have shown : (Kind.of space "OLEObject").skipped context = false := by
      rw [object]
      rfl
    obtain ⟨others, same, differ⟩ := ambiguous.exists_perm distinct named
    have events := congrArg Outcome.events (unordered others same)
    simp only [outcome, step, start_of_shown _ shown ungated, object] at events
    exact differ (List.append_cancel_left events)
  · intro clear others same
    cases gated : state.gated context with
    | true =>
        have hidden : (state.counting (Kind.of space name)).gated context = true := by
          rw [State.gated_counting, gated]
          rfl
        simp only [outcome, step, start_of_gated _ hidden]
    | false =>
        refine step_start_congr fun state => startKind_of_perm distinct same ?_
        intro object named ambiguous
        exact clear ⟨Kind.name_of_of object, gated, named, ambiguous⟩

/-- An object that is embedded by its own type and linked by one in another namespace. -/
def doublyTypedObject : Attributes :=
  [("Type", "Embed"), (joinName "urn:x" "Type", "Link"),
   (joinName relationshipSpace "id", "rId8")]

theorem step_doublyTypedObject :
    let outcome (given : Attributes) :=
      step {} {} {} (.start (some officeSpace) "OLEObject" given)
    (doublyTypedObject.map Prod.fst).Nodup ∧
      doublyTypedObject.Perm doublyTypedObject.reverse ∧
        (outcome doublyTypedObject).events = [] ∧
          (outcome doublyTypedObject.reverse).events = [.embeddedObject (some "rId8")] := by
  decide +kernel

/-- An object that is given a type, a program and a relationship once each, while a paragraph is
pending. -/
def typedObject : Attributes :=
  [("Type", "Embed"), ("ProgID", "Excel.Sheet.12"), (joinName relationshipSpace "id", "rId8")]

theorem step_typedObject :
    let outcome (given : Attributes) :=
      step {} {} { paragraphPending := true } (.start (some officeSpace) "OLEObject" given)
    (typedObject.map Prod.fst).Nodup ∧
      (outcome typedObject.reverse).events =
        [.paragraphStart {}, .embeddedObject (some "rId8")] ∧
          ∀ others, typedObject.Perm others → outcome others = outcome typedObject := by
  intro outcome
  have distinct : (typedObject.map Prod.fst).Nodup := by decide +kernel
  have plain : ¬IsAmbiguous typedObject := by decide +kernel
  have unordered : ∀ others, typedObject.Perm others → outcome others = outcome typedObject :=
    (step_start_of_perm {} {} { paragraphPending := true } (some officeSpace) "OLEObject"
      distinct).2.2 fun ambiguous => plain ambiguous.2.2.2
  refine ⟨distinct, ?_, unordered⟩
  rw [unordered _ (List.reverse_perm _).symm]
  decide +kernel

end WordStream.Body

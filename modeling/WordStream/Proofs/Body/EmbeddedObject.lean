import WordStream.Proofs.Body.Skeleton

/-!
# What the attributes of an embedded object give

The scan of an embedded object splits the names of all attributes, and fails where one has no parts. What it
gives besides the type is the relationship, which one full name stands for.
-/

set_option autoImplicit false

namespace WordStream.Body

open Markup (Attributes IsUnclosed joinName joinName_of_splitName? splitName?
  splitName?_eq_none_iff splitName?_joinName)

variable {context : Context} {attributes : Attributes}

theorem Kind.of_oleObject (space : Option String) :
    Kind.of space "OLEObject" = .content .oleObject :=
  Kind.of_name (show Tag.oleObject ≠ .edit .none by decide) space

/-- An embedded object is reported and leaves the state alone. -/
theorem startKind_oleObject_state (attributes : Attributes) (state : State) :
    (startKind context attributes state (.content .oleObject)).state = state := by
  simp only [startKind, startTag]
  cases scanObject? attributes <;> rfl

/-! ## One attribute -/

/-- Takes one attribute into what was found of the type and the relationship. -/
def scanAttribute? (found : Option String × Option String) (entry : String × String) :
    Option (Option String × Option String) :=
  (splitName? entry.1).map fun parts =>
    if parts.2 = "Type" then (some entry.2, found.2)
    else if parts.1 = relationshipSpace ∧ parts.2 = "id" then (found.1, some entry.2)
    else found

theorem scanObject?_eq_foldlM (attributes : Attributes) :
    scanObject? attributes = attributes.foldlM scanAttribute? (none, none) := by
  unfold scanObject?
  congr 1
  funext found entry
  dsimp only [scanAttribute?]
  cases splitName? entry.1 with
  | none => rfl
  | some parts =>
      simp only [Option.bind_eq_bind, Option.bind_some, Option.map_some, Bool.and_eq_true,
        decide_eq_true_eq]
      split
      · rfl
      · split <;> rfl

theorem scanAttribute?_eq_none_iff (found : Option String × Option String) (entry : String × String) :
    scanAttribute? found entry = none ↔ IsUnclosed entry.1 := by
  rw [scanAttribute?, Option.map_eq_none_iff, splitName?_eq_none_iff]

/-- Only one full name stands for the relationship. -/
theorem scanAttribute?_snd {found next : Option String × Option String} {name value : String}
    (taken : scanAttribute? found (name, value) = some next) :
    next.2 = if name = joinName relationshipSpace "id" then some value else found.2 := by
  obtain ⟨⟨space, localName⟩, split, rfl⟩ := Option.map_eq_some_iff.1 taken
  have known : splitName? (joinName relationshipSpace "id") = some (relationshipSpace, "id") :=
    splitName?_joinName (by decide) (by decide) "id"
  by_cases same : name = joinName relationshipSpace "id"
  · rw [same, known] at split
    cases split
    rw [if_pos same]
    rfl
  · have other : ¬(space = relationshipSpace ∧ localName = "id") := by
      rintro ⟨rfl, rfl⟩
      exact same (joinName_of_splitName? (by decide) split).symm
    rw [if_neg same, if_neg other]
    split <;> rfl

/-! ## Failure -/

/-- A fold whose steps fail for what they take alone fails if and only if one of them does. -/
theorem foldlM_eq_none_iff {α β : Type} {step : β → α → Option β} {refuses : α → Prop}
    (refused : ∀ found item, step found item = none ↔ refuses item) {items : List α} (found : β) :
    items.foldlM step found = none ↔ ∃ item ∈ items, refuses item := by
  induction items generalizing found with
  | nil => simp
  | cons item rest ih =>
      simp only [List.foldlM_cons, List.mem_cons, exists_eq_or_imp]
      cases taken : step found item with
      | none => exact iff_of_true rfl (.inl ((refused found item).1 taken))
      | some next =>
          have passes : ¬refuses item := by
            rw [← refused found item, taken]
            exact Option.some_ne_none next
          exact (ih next).trans (or_iff_right passes).symm

theorem scanObject?_eq_none_iff :
    scanObject? attributes = none ↔ ∃ entry ∈ attributes, IsUnclosed entry.1 := by
  rw [scanObject?_eq_foldlM]
  exact foldlM_eq_none_iff scanAttribute?_eq_none_iff (none, none)

/-! ## What is found -/

/-- Whether an attribute of a name gives the type of an object, in whatever namespace. -/
def givesType (name : String) : Bool :=
  (splitName? name).map Prod.snd == some "Type"

theorem objectType?_eq_find? (attributes : Attributes) :
    objectType? attributes =
      (attributes.reverse.find? fun entry => givesType entry.1).map Prod.snd := rfl

theorem objectType?_append_singleton {entry : String × String}
    (gives : givesType entry.1 = true) : objectType? (attributes ++ [entry]) = some entry.2 := by
  simp [objectType?_eq_find?, gives]

theorem exists_of_objectType? {type : String} (found : objectType? attributes = some type) :
    ∃ entry ∈ attributes, givesType entry.1 = true ∧ entry.2 = type := by
  rw [objectType?_eq_find?] at found
  obtain ⟨entry, last, rfl⟩ := Option.map_eq_some_iff.1 found
  have gives := List.find?_some last
  exact ⟨entry, List.mem_reverse.1 (List.mem_of_find?_eq_some last), gives, rfl⟩

theorem isSome_objectType? {entry : String × String} (member : entry ∈ attributes)
    (gives : givesType entry.1 = true) : (objectType? attributes).isSome = true := by
  rw [objectType?_eq_find?, Option.isSome_map, List.find?_isSome]
  exact ⟨entry, List.mem_reverse.2 member, gives⟩

/-- Where no name is given twice, the scan gives the relationship that stands under its name, and
otherwise the one that was found before. -/
theorem foldlM_scanAttribute?_snd {found last : Option String × Option String}
    (distinct : (attributes.map Prod.fst).Nodup)
    (scanned : attributes.foldlM scanAttribute? found = some last) :
    last.2 = (attributes.get? (joinName relationshipSpace "id")).or found.2 := by
  induction attributes generalizing found with
  | nil =>
      cases scanned
      rfl
  | cons entry rest ih =>
      obtain ⟨name, value⟩ := entry
      rw [List.map_cons, List.nodup_cons] at distinct
      rw [List.foldlM_cons] at scanned
      obtain ⟨next, taken, onward⟩ := Option.bind_eq_some_iff.1 scanned
      rw [ih distinct.2 onward, scanAttribute?_snd taken, Attributes.get?_cons]
      by_cases same : name = joinName relationshipSpace "id"
      · have absent : Attributes.get? rest name = none := Attributes.get?_eq_none_iff.2 distinct.1
        rw [if_pos same, if_pos same.symm, ← same, absent]
        rfl
      · rw [if_neg same, if_neg (Ne.symm same)]

theorem all_isSome_splitName?_iff :
    (attributes.all fun entry => (splitName? entry.1).isSome) = true ↔
      ∀ entry ∈ attributes, ¬IsUnclosed entry.1 := by
  simp only [List.all_eq_true, Option.isSome_iff_ne_none, Ne, splitName?_eq_none_iff]

/-- Where all names have parts and no name is given twice, the scan finds the last type and the
relationship. -/
theorem scanObject?_of_named (distinct : (attributes.map Prod.fst).Nodup)
    (named : ∀ entry ∈ attributes, ¬IsUnclosed entry.1) :
    scanObject? attributes =
      some (objectType? attributes, attributes.get? (joinName relationshipSpace "id")) := by
  obtain ⟨relationship, scanned⟩ := scanObject?_eq (all_isSome_splitName?_iff.2 named)
  rw [scanned]
  rw [scanObject?_eq_foldlM] at scanned
  have found := foldlM_scanAttribute?_snd distinct scanned
  rw [Option.or_none] at found
  rw [← found]

end WordStream.Body

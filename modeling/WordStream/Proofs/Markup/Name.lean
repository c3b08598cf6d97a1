import WordStream.Markup.Name

/-!
# Splitting names, joining them, and looking them up

A namespace without a closing brace is told apart from the local name that it is joined with. A name that
begins with a brace which nothing closes, and no other, has no parts. The parts of a name join to it again, but
for an empty namespace in braces. Among attributes in which no name is given twice, a name has the value that
it is listed with, wherever that is.
-/

set_option autoImplicit false

namespace WordStream.Markup

variable {name space localName : String}

/-! ## Parts -/

theorem splitAtBrace?_append {space : List Char} (closed : '}' ∉ space) (rest : List Char) :
    splitAtBrace? (space ++ '}' :: rest) = some (space, rest) := by
  induction space with
  | nil => rfl
  | cons character space ih =>
      have others := ih fun member => closed (List.mem_cons_of_mem _ member)
      have first : character ≠ '}' := by
        rintro rfl
        exact closed List.mem_cons_self
      rw [List.cons_append, splitAtBrace?, others, Option.map_some]
      exact first

theorem splitAtBrace?_eq_none_iff {characters : List Char} :
    splitAtBrace? characters = none ↔ '}' ∉ characters := by
  constructor
  · intro unsplit member
    obtain ⟨space, rest, rfl, closed⟩ := List.eq_append_cons_of_mem member
    rw [splitAtBrace?_append closed] at unsplit
    cases unsplit
  · intro unclosed
    induction characters with
    | nil => rfl
    | cons character rest ih =>
        have first : character ≠ '}' := fun same => unclosed (same ▸ List.mem_cons_self)
        have others := ih fun member => unclosed (List.mem_cons_of_mem _ member)
        rw [splitAtBrace?, others, Option.map_none]
        exact first

/-- It is the first closing brace that splits. -/
theorem splitAtBrace?_eq_some_iff {characters space rest : List Char} :
    splitAtBrace? characters = some (space, rest) ↔
      characters = space ++ '}' :: rest ∧ '}' ∉ space := by
  constructor
  · intro split
    have member : '}' ∈ characters := by
      refine Decidable.byContradiction fun unclosed => ?_
      rw [splitAtBrace?_eq_none_iff.2 unclosed] at split
      cases split
    obtain ⟨before, after, rfl, closed⟩ := List.eq_append_cons_of_mem member
    rw [splitAtBrace?_append closed] at split
    cases split
    exact ⟨rfl, closed⟩
  · rintro ⟨rfl, closed⟩
    exact splitAtBrace?_append closed rest

theorem splitName?_eq_some_iff :
    splitName? name = some (space, localName) ↔
      (name.toList = '{' :: (space.toList ++ '}' :: localName.toList) ∧ '}' ∉ space.toList) ∨
        (name.toList.head? ≠ some '{' ∧ space = "" ∧ localName = name) := by
  unfold splitName?
  split
  · next rest characters =>
      have braced : name.toList.head? = some '{' := by rw [characters, List.head?_cons]
      rw [Option.map_eq_some_iff]
      constructor
      · rintro ⟨⟨before, after⟩, parts, both⟩
        obtain ⟨rfl, rfl⟩ := Prod.mk.inj both
        obtain ⟨rfl, closed⟩ := splitAtBrace?_eq_some_iff.1 parts
        left
        simp only [String.toList_ofList]
        exact ⟨characters, closed⟩
      · rintro (⟨whole, closed⟩ | ⟨plain, -⟩)
        · refine ⟨(space.toList, localName.toList), ?_, by simp only [String.ofList_toList]⟩
          rw [whole, List.cons.injEq] at characters
          exact splitAtBrace?_eq_some_iff.2 ⟨characters.2.symm, closed⟩
        · exact absurd braced plain
  · next unmatched =>
      have plain : name.toList.head? ≠ some '{' := by
        intro braced
        obtain ⟨rest, characters⟩ := List.head?_eq_some_iff.1 braced
        exact unmatched rest characters
      constructor
      · intro split
        obtain ⟨rfl, rfl⟩ := Prod.mk.inj (Option.some.inj split)
        exact .inr ⟨plain, rfl, rfl⟩
      · rintro (⟨whole, -⟩ | ⟨-, rfl, rfl⟩)
        · rw [whole, List.head?_cons] at plain
          exact absurd rfl plain
        · rfl

/-- Whether a name begins with a brace that nothing closes. -/
def IsUnclosed (name : String) : Prop :=
  name.toList.head? = some '{' ∧ '}' ∉ name.toList

theorem splitName?_eq_none_iff : splitName? name = none ↔ IsUnclosed name := by
  unfold splitName? IsUnclosed
  split
  · next rest characters => simp [characters, splitAtBrace?_eq_none_iff]
  · next plain =>
      refine iff_of_false (Option.some_ne_none _) ?_
      rintro ⟨braced, -⟩
      obtain ⟨rest, characters⟩ := List.head?_eq_some_iff.1 braced
      exact plain rest characters

/-! ## Parts and joined names -/

theorem joinName_empty (localName : String) : joinName "" localName = localName := by
  simp [joinName]

theorem toList_joinName (filled : space ≠ "") (localName : String) :
    (joinName space localName).toList = '{' :: (space.toList ++ '}' :: localName.toList) := by
  simp [joinName, filled]

theorem splitName?_joinName (filled : space ≠ "") (closed : '}' ∉ space.toList)
    (localName : String) : splitName? (joinName space localName) = some (space, localName) :=
  splitName?_eq_some_iff.2 (.inl ⟨toList_joinName filled localName, closed⟩)

/-- A name in a namespace is what its parts are joined to. -/
theorem joinName_of_splitName? (filled : space ≠ "")
    (split : splitName? name = some (space, localName)) : joinName space localName = name := by
  rcases splitName?_eq_some_iff.1 split with ⟨whole, -⟩ | ⟨-, empty, -⟩
  · exact String.toList_inj.1 ((toList_joinName filled localName).trans whole.symm)
  · exact absurd empty filled

/-- A name with empty braces in front is another name. -/
theorem ne_braces_append (localName : String) :
    localName.toList ≠ '{' :: ("".toList ++ '}' :: localName.toList) := by
  intro same
  have braces : ['{', '}'] = [] := List.self_eq_append_left.1 same
  cases braces

theorem splitName?_joinName_iff :
    splitName? (joinName space localName) = some (space, localName) ↔
      (space ≠ "" ∧ '}' ∉ space.toList) ∨ (space = "" ∧ localName.toList.head? ≠ some '{') := by
  by_cases filled : space ≠ ""
  · rw [splitName?_eq_some_iff, toList_joinName filled]
    simp [filled]
  · obtain rfl := Decidable.not_not.1 filled
    rw [joinName_empty, splitName?_eq_some_iff]
    constructor
    · rintro (⟨whole, -⟩ | ⟨plain, -⟩)
      · exact absurd whole (ne_braces_append localName)
      · exact .inr ⟨rfl, plain⟩
    · rintro (⟨other, -⟩ | ⟨-, plain⟩)
      · exact absurd other filled
      · exact .inr ⟨plain, rfl, rfl⟩

/-- Whether a name begins with braces that hold nothing. -/
def HasEmptyBraces (name : String) : Prop :=
  ['{', '}'] <+: name.toList

theorem joinName_eq_iff_of_splitName? (split : splitName? name = some (space, localName)) :
    joinName space localName = name ↔ ¬HasEmptyBraces name := by
  rcases splitName?_eq_some_iff.1 split with ⟨whole, closed⟩ | ⟨plain, rfl, rfl⟩
  · by_cases filled : space ≠ ""
    · refine iff_of_true (joinName_of_splitName? filled split) ?_
      rintro ⟨rest, same⟩
      rw [whole] at same
      cases characters : space.toList with
      | nil => exact filled (String.toList_eq_nil_iff.1 characters)
      | cons first others =>
          rw [characters] at same closed
          have brace : '}' = first := (List.cons.inj (List.cons.inj same).2).1
          exact closed (brace ▸ List.mem_cons_self)
    · obtain rfl := Decidable.not_not.1 filled
      refine iff_of_false ?_ (not_not_intro ⟨localName.toList, whole.symm⟩)
      rw [joinName_empty]
      rintro rfl
      exact ne_braces_append localName whole
  · refine iff_of_true (joinName_empty localName) ?_
    rintro ⟨rest, same⟩
    rw [← same] at plain
    exact plain rfl

/-- Splitting undoes joining if and only if the namespace is filled and holds no closing brace, or there is
none and the local name does not begin with an opening one. Joining undoes splitting, wherever that gives
parts, if and only if the name does not begin with braces that hold nothing; and it gives none if and only if
the name begins with an opening brace and holds no closing one. -/
theorem splitName?_inverse_joinName :
    (∀ space localName : String,
        splitName? (joinName space localName) = some (space, localName) ↔
          (space ≠ "" ∧ '}' ∉ space.toList) ∨
            (space = "" ∧ localName.toList.head? ≠ some '{')) ∧
      (∀ name space localName : String, splitName? name = some (space, localName) →
        (joinName space localName = name ↔ ¬HasEmptyBraces name)) ∧
      ∀ name : String, splitName? name = none ↔ IsUnclosed name := by
  refine ⟨?_, ?_, ?_⟩
  · intro space localName
    exact splitName?_joinName_iff
  · intro name space localName split
    exact joinName_eq_iff_of_splitName? split
  · intro name
    exact splitName?_eq_none_iff

/-- Braces within the parts do no harm, an empty namespace in braces does. -/
theorem splitName?_bracedParts :
    splitName? "\x7burn:\x7bx\x7da\x7d\x7b" = some ("urn:\x7bx", "a\x7d\x7b") ∧
      joinName "urn:\x7bx" "a\x7d\x7b" = "\x7burn:\x7bx\x7da\x7d\x7b" ∧
      splitName? "\x7b\x7da" = some ("", "a") ∧ joinName "" "a" ≠ "\x7b\x7da" := by
  obtain ⟨-, rejoins, -⟩ := splitName?_inverse_joinName
  have filled : splitName? "\x7burn:\x7bx\x7da\x7d\x7b" = some ("urn:\x7bx", "a\x7d\x7b") := by
    decide +kernel
  have empty : splitName? "\x7b\x7da" = some ("", "a") := by
    decide +kernel
  have apart : ¬HasEmptyBraces "\x7burn:\x7bx\x7da\x7d\x7b" := by
    unfold HasEmptyBraces
    decide +kernel
  have braces : HasEmptyBraces "\x7b\x7da" := by
    unfold HasEmptyBraces
    decide +kernel
  refine ⟨filled, (rejoins _ _ _ filled).2 apart, empty, fun same => ?_⟩
  exact (rejoins _ _ _ empty).1 same braces

/-! ## Attributes -/

namespace Attributes

variable {attributes others : Attributes} {value : String}

theorem get?_cons (entry : String × String) (rest : Attributes) (name : String) :
    Attributes.get? (entry :: rest) name =
      if name = entry.1 then some entry.2 else rest.get? name := by
  unfold Attributes.get?
  rw [List.lookup_cons]
  by_cases same : name = entry.1
  · rw [if_pos same, beq_iff_eq.2 same]
  · rw [if_neg same, beq_eq_false_iff_ne.2 same]

theorem get?_eq_none_iff : attributes.get? name = none ↔ name ∉ attributes.map Prod.fst := by
  unfold Attributes.get?
  rw [List.lookup_eq_none_iff, List.mem_map]
  constructor
  · rintro absent ⟨entry, member, rfl⟩
    exact absurd rfl (bne_iff_ne.1 (absent entry member))
  · intro absent entry member
    exact bne_iff_ne.2 fun same => absent ⟨entry, member, same.symm⟩

theorem get?_eq_some_iff_mem (distinct : (attributes.map Prod.fst).Nodup) :
    attributes.get? name = some value ↔ (name, value) ∈ attributes := by
  induction attributes with
  | nil => simp [Attributes.get?]
  | cons entry rest ih =>
      obtain ⟨first, held⟩ := entry
      rw [List.map_cons, List.nodup_cons] at distinct
      rw [get?_cons, List.mem_cons, ← ih distinct.2]
      by_cases same : name = first
      · subst same
        have later : Attributes.get? rest name = none := get?_eq_none_iff.2 distinct.1
        simp [later, eq_comm]
      · simp [same]

/-- Where no name is given twice, the order of attributes does not matter to the value of a name. -/
theorem get?_of_perm (distinct : (attributes.map Prod.fst).Nodup) (same : attributes.Perm others)
    (name : String) : others.get? name = attributes.get? name := by
  have rearranged : (others.map Prod.fst).Nodup := (same.map Prod.fst).nodup_iff.1 distinct
  apply Option.ext
  intro value
  rw [get?_eq_some_iff_mem distinct, get?_eq_some_iff_mem rearranged, same.mem_iff]

end Attributes

end WordStream.Markup

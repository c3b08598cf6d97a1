import WordStream.Proofs.Body.View

/-!
# Formats under two flags

The formats of runs and of paragraphs are kept alike: under a flag for an open outer element and one for an
inner element directly in it. Where the flags tell the truth the format goes on by what is mentioned.
-/

set_option autoImplicit false

namespace WordStream.Body

open Markup (Attributes)

/-- A format that a value keeps, the flags for the elements it is given in, and what mentioned elements make
of it. -/
structure FormatScope (Value Format : Type) where
  outer : Kind
  inner : Kind
  inOuter : Value → Bool
  inInner : Value → Bool
  format : Value → Format
  given : Format → List Mention → Format
  given_nil : ∀ format, given format [] = format
  given_append : ∀ format former latter,
    given format (former ++ latter) = given (given format former) latter

namespace FormatScope

variable {Value Format : Type} (scope : FormatScope Value Format)

/-- In an outer element with its flag set the flag stays set, and the format goes on by what is mentioned. The
inner flag stays as it is in inner elements; directly in the outer one it may change, for no format is given
there by it. -/
def Follows (ancestors : List Kind) (before : Value) (mentioned : List Mention) (after : Value) :
    Prop :=
  scope.inOuter before = true →
    (ancestors = [scope.inner, scope.outer] → scope.inInner before = true) →
      scope.inOuter after = true ∧
        (ancestors ≠ [scope.outer] → scope.inInner after = scope.inInner before) ∧
          scope.format after = scope.given (scope.format before) mentioned

namespace Follows

variable {scope} {ancestors : List Kind} {kind : Kind} {before opened middle inner closed : Value}
  {own mentioned former latter : List Mention}

theorem nil : scope.Follows ancestors before [] before := by
  intro outer _
  exact ⟨outer, fun _ => rfl, (scope.given_nil _).symm⟩

theorem append (first : scope.Follows ancestors before former middle)
    (rest : scope.Follows ancestors middle latter closed) :
    scope.Follows ancestors before (former ++ latter) closed := by
  intro outer flagged
  obtain ⟨stillOuter, sameFlag, firstFormat⟩ := first outer flagged
  have stillFlagged :
      ancestors = [scope.inner, scope.outer] → scope.inInner middle = true := by
    rintro rfl
    rw [sameFlag (by simp)]
    exact flagged rfl
  obtain ⟨endOuter, endFlag, endFormat⟩ := rest stillOuter stillFlagged
  refine ⟨endOuter, ?_, ?_⟩
  · intro deeper
    rw [endFlag deeper, sameFlag deeper]
  · rw [endFormat, firstFormat, scope.given_append]

/-- An element of another kind gives what its start gives and what is mentioned inside. -/
theorem around (inside : scope.Follows (kind :: ancestors) opened mentioned inner)
    (apart : (kind == scope.outer || kind == scope.inner) = false)
    (opens : scope.inOuter opened = scope.inOuter before ∧
      scope.inInner opened = scope.inInner before)
    (gives : scope.inOuter before = true →
      (ancestors = [scope.inner, scope.outer] → scope.inInner before = true) →
        scope.format opened = scope.given (scope.format before) own)
    (closes : scope.inOuter closed = scope.inOuter inner ∧
      scope.inInner closed = scope.inInner inner ∧ scope.format closed = scope.format inner) :
    scope.Follows ancestors before (own ++ mentioned) closed := by
  intro outer flagged
  rw [Bool.or_eq_false_iff, beq_eq_false_iff_ne, beq_eq_false_iff_ne] at apart
  have elsewhere : kind :: ancestors ≠ [scope.inner, scope.outer] := by
    intro same
    exact apart.2 (List.cons.inj same).1
  have notDirect : kind :: ancestors ≠ [scope.outer] := by
    intro same
    exact apart.1 (List.cons.inj same).1
  obtain ⟨stillOuter, sameFlag, format⟩ :=
    inside (opens.1.trans outer) (fun same => absurd same elsewhere)
  refine ⟨closes.1.trans stillOuter, ?_, ?_⟩
  · intro _
    rw [closes.2.1, sameFlag notDirect, opens.2]
  · rw [closes.2.2, format, gives outer flagged, scope.given_append]

/-- An inner element directly in the outer one sets its flag and clears it. -/
theorem enter (inside : scope.Follows [scope.inner, scope.outer] opened mentioned inner)
    (opens : scope.inOuter opened = scope.inOuter before ∧ scope.inInner opened = true ∧
      scope.format opened = scope.format before)
    (closes : scope.inOuter closed = scope.inOuter inner ∧
      scope.format closed = scope.format inner) :
    scope.Follows [scope.outer] before mentioned closed := by
  intro outer _
  obtain ⟨stillOuter, _, format⟩ := inside (opens.1.trans outer) (fun _ => opens.2.1)
  refine ⟨closes.1.trans stillOuter, fun other => absurd rfl other, ?_⟩
  rw [closes.2, format, opens.2.2]

end Follows

end FormatScope

end WordStream.Body

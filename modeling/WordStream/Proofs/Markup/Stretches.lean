import WordStream.Proofs.Markup.Parts
import WordStream.Proofs.Markup.Gathered

/-!
# The text of a stretch

However a stretch is cut into pieces, they hold its text with every line end written as a line feed. A stretch
that is read as far as it has come gives, with what is read of the rest of it, the text of the whole stretch. Only
a line end of two characters must not be cut.
-/

set_option autoImplicit false

namespace WordStream.Markup

namespace Stretch

/-- The text of a stretch that is being split. -/
def text (stretch : Stretch) : String :=
  String.join stretch.pieces.reverse ++ String.ofList stretch.piece.reverse

/-- The text that a stretch is read as, and what is left after it. -/
def read? (final : Bool) : List Char → Option (List Char × List Char)
  | [] => some ([], [])
  | '\r' :: '\n' :: rest => (read? final rest).map fun parts => ('\n' :: parts.1, parts.2)
  | character :: rest =>
      if character = '<' || character = '&' then some ([], character :: rest)
      else if character = ']' && isSectionEnd rest then none
      else if character = ']' && isOpenBracket final rest then some ([], character :: rest)
      else if isDocumentCharacter character then
        (read? final rest).map fun parts =>
          ((if character = '\r' then '\n' else character) :: parts.1, parts.2)
      else none

theorem isDocumentCharacter_of_isPlain {character : Char} (plain : isPlain character = true) :
    isDocumentCharacter character = true := by
  simp only [isPlain, Bool.or_eq_true, Bool.and_eq_true, decide_eq_true_iff] at plain
  rcases plain with (rfl | rfl) | ⟨low, high⟩
  · decide
  · decide
  · have code : 0x20 ≤ character.toNat := low
    simp only [isDocumentCharacter, Text.inRanges, List.any_cons, Bool.or_eq_true, Bool.and_eq_true,
      decide_eq_true_iff]
    omega

@[simp]
theorem text_cut (stretch : Stretch) : stretch.cut.text = stretch.text := by
  unfold cut
  split
  · rfl
  · simp [text]

@[simp]
theorem text_cutFull (stretch : Stretch) : stretch.cutFull.text = stretch.text := by
  unfold cutFull
  split <;> simp

@[simp]
theorem text_add (stretch : Stretch) (character : Char) :
    (stretch.add character).text = stretch.text ++ String.singleton character := by
  simp only [text, add, List.reverse_cons, String.ofList_append, String.append_assoc]
  rfl

@[simp]
theorem text_addTo (stretch : Stretch) (plain : Bool) (character : Char) :
    (stretch.addTo plain character).text = stretch.text ++ String.singleton character := by
  cases plain <;> simp [addTo]

theorem piece_cut (stretch : Stretch) : stretch.cut.piece = [] := by
  unfold cut
  split
  · next empty => exact List.isEmpty_iff.1 empty
  · rfl

/-- A stretch is split as it is read, into pieces that hold what is read. -/
theorem map_split? (final plain : Bool) (stretch : Stretch) (characters : List Char) :
    (split? final plain stretch characters).map (fun parts => (parts.1.text, parts.2)) =
      (read? final characters).map fun parts => (stretch.text ++ String.ofList parts.1, parts.2) := by
  have onward : ∀ (stretch : Stretch) (character : Char) (read : Option (List Char × List Char)),
      read.map (fun parts => (stretch.text ++ String.singleton character ++ String.ofList parts.1, parts.2)) =
        (read.map fun parts => (character :: parts.1, parts.2)).map
          fun parts => (stretch.text ++ String.ofList parts.1, parts.2) := by
    intro stretch character read
    rw [Option.map_map]
    refine congrArg (Option.map · read) (funext fun parts => ?_)
    simp only [Function.comp_apply, String.ofList_cons, String.append_assoc]
  have broken : ∀ (stretch : Stretch) (condition : Bool),
      (if condition = true then stretch.cut else stretch).text = stretch.text := by
    intro stretch condition
    split <;> simp
  fun_induction split? final plain stretch characters with
  | case1 plain stretch => simp [read?]
  | case2 plain stretch rest cut later ih =>
      rw [ih, read?, ← onward, text_addTo, broken]
  | case3 plain stretch character rest other mark =>
      rw [read?.eq_3 _ _ _ other, if_pos mark]
      simp
  | case4 plain stretch character rest other mark bracket =>
      rw [read?.eq_3 _ _ _ other, if_neg mark, if_pos bracket]
      rfl
  | case5 plain stretch character rest other mark bracket opened =>
      rw [read?.eq_3 _ _ _ other, if_neg mark, if_neg bracket, if_pos opened]
      simp
  | case6 plain stretch character rest other mark bracket opened plainly ih =>
      have plainToo := (Bool.and_eq_true _ _ ▸ plainly).2
      have kept : (if character = '\r' then '\n' else character) = character := if_neg fun same => by
        rw [same] at plainToo
        revert plainToo
        decide
      rw [read?.eq_3 _ _ _ other, if_neg mark, if_neg bracket, if_neg opened,
        if_pos (isDocumentCharacter_of_isPlain plainToo), ih, ← onward, text_add, kept]
  | case7 plain stretch character rest other mark bracket opened plainly document cut ih =>
      rw [read?.eq_3 _ _ _ other, if_neg mark, if_neg bracket, if_neg opened, if_pos document, ih,
        ← onward, text_addTo, broken]
  | case8 plain stretch character rest other mark bracket opened plainly document =>
      rw [read?.eq_3 _ _ _ other, if_neg mark, if_neg bracket, if_neg opened, if_neg document]
      rfl

theorem piece_split? {final plain : Bool} {stretch done : Stretch} {characters left : List Char}
    (split : split? final plain stretch characters = some (done, left)) : done.piece = [] := by
  fun_induction split? final plain stretch characters with
  | case1 => cases split; exact piece_cut _
  | case2 _ _ _ _ _ ih => exact ih split
  | case3 => cases split; exact piece_cut _
  | case4 => cases split
  | case5 => cases split; exact piece_cut _
  | case6 _ _ _ _ _ _ _ _ _ ih => exact ih split
  | case7 _ _ _ _ _ _ _ _ _ _ _ ih => exact ih split
  | case8 => cases split

/-- The pieces of a stretch hold what it is read as. -/
theorem join_pieces {final : Bool} {done : Stretch} {characters left : List Char}
    (split : split? final true {} characters = some (done, left)) :
    ∃ read, read? final characters = some (read, left) ∧
      String.join done.pieces.reverse = String.ofList read := by
  have same := map_split? final true {} characters
  rw [split] at same
  obtain ⟨⟨read, rest⟩, found, parts⟩ := Option.map_eq_some_iff.1 same.symm
  simp only [Prod.mk.injEq, text, piece_split? split] at parts
  obtain ⟨text, rfl⟩ := parts
  exact ⟨read, found, by simpa using text.symm⟩

theorem exists_split? {final : Bool} {characters read left : List Char}
    (found : read? final characters = some (read, left)) :
    ∃ done, split? final true {} characters = some (done, left) := by
  have same := map_split? final true {} characters
  rw [found] at same
  obtain ⟨⟨done, rest⟩, split, parts⟩ := Option.map_eq_some_iff.1 same
  obtain ⟨-, rfl⟩ := Prod.mk.inj parts
  exact ⟨done, split⟩

theorem split?_eq_none_iff {final : Bool} {characters : List Char} :
    split? final true {} characters = none ↔ read? final characters = none := by
  rw [← Option.map_eq_none_iff, map_split?, Option.map_eq_none_iff]

theorem suffix_of_read? {final : Bool} {characters read left : List Char}
    (found : read? final characters = some (read, left)) : left <:+ characters := by
  fun_induction read? final characters generalizing read with
  | case1 => cases found; exact List.suffix_rfl
  | case2 rest ih =>
      obtain ⟨⟨_, _⟩, before, same⟩ := Option.map_eq_some_iff.1 found
      cases same
      exact (ih before).trans ((List.suffix_cons _ _).trans (List.suffix_cons _ _))
  | case3 => cases found; exact List.suffix_rfl
  | case4 => cases found
  | case5 => cases found; exact List.suffix_rfl
  | case6 character rest other mark bracket opened document ih =>
      obtain ⟨⟨_, _⟩, before, same⟩ := Option.map_eq_some_iff.1 found
      cases same
      exact (ih before).trans (List.suffix_cons _ _)
  | case7 => cases found

/-- Nothing is taken of a text that does not begin with a stretch. -/
theorem split?_of_mark (final : Bool) {characters : List Char}
    (mark : ∀ character ∈ characters.head?, character = '<' ∨ character = '&') :
    split? final true {} characters = some ({}, characters) := by
  cases characters with
  | nil => rfl
  | cons character rest => rcases mark character rfl with rfl | rfl <;> rfl

theorem isOpenBracket_true (rest : List Char) : isOpenBracket true rest = false := by
  unfold isOpenBracket
  split <;> rfl

/-- Where enough of a text has arrived behind a bracket, more of it does not make a mark of the bracket. -/
theorem isSectionEnd_append {rest : List Char} (come : ¬isOpenBracket false rest = true)
    (more : List Char) : isSectionEnd (rest ++ more) = isSectionEnd rest := by
  rcases rest with _ | ⟨first, _ | ⟨second, rest⟩⟩
  · exact absurd rfl come
  · have other : first ≠ ']' := by
      rintro rfl
      exact come rfl
    simp [isSectionEnd, other]
  · by_cases mark : first = ']' ∧ second = '>'
    · obtain ⟨rfl, rfl⟩ := mark
      rfl
    · have none : ∀ tail : List Char, isSectionEnd (first :: second :: tail) = false := fun tail => by
        unfold isSectionEnd
        split
        · next same =>
            cases same
            exact absurd ⟨rfl, rfl⟩ mark
        · rfl
      exact (none (rest ++ more)).trans (none rest).symm

/-- Where no more text may come, a bracket is never left. -/
theorem read?_true_cons {character : Char} {rest : List Char}
    (other : ∀ back, character = '\r' → rest = '\n' :: back → False)
    (mark : ¬(decide (character = '<') || decide (character = '&')) = true) :
    read? true (character :: rest) =
      if (decide (character = ']') && isSectionEnd rest) = true then none
      else if isDocumentCharacter character = true then
        (read? true rest).map fun parts =>
          ((if character = '\r' then '\n' else character) :: parts.1, parts.2)
      else none := by
  rw [read?.eq_3 _ _ _ other, if_neg mark, isOpenBracket_true, Bool.and_false]
  rfl

/-- What a front of a stretch is read as comes before what the rest of it is read as, where no line end is cut. -/
theorem read?_append {front more read left : List Char}
    (found : read? false front = some (read, left))
    (unbroken : front.getLast? = some '\r' → more.head? ≠ some '\n') :
    read? true (front ++ more) =
      (read? true (left ++ more)).map fun parts => (read ++ parts.1, parts.2) := by
  fun_induction read? false front generalizing read with
  | case1 =>
      cases found
      simp
  | case2 rest ih =>
      obtain ⟨⟨front, _⟩, before, same⟩ := Option.map_eq_some_iff.1 found
      cases same
      have last : rest.getLast? = some '\r' → more.head? ≠ some '\n' := fun last => unbroken (by
        rw [List.getLast?_cons, List.getLast?_cons, last]
        rfl)
      rw [List.cons_append, List.cons_append, read?, ih before last, Option.map_map]
      rfl
  | case3 character rest other mark =>
      cases found
      simp
  | case4 => cases found
  | case5 character rest other mark bracket opened =>
      cases found
      simp
  | case6 character rest other mark bracket opened document ih =>
      obtain ⟨⟨front, _⟩, before, same⟩ := Option.map_eq_some_iff.1 found
      cases same
      have last : rest.getLast? = some '\r' → more.head? ≠ some '\n' := fun last => unbroken (by
        rw [List.getLast?_cons, last]
        rfl)
      have otherToo : ∀ back, character = '\r' → rest ++ more = '\n' :: back → False := by
        rintro back rfl broken
        cases rest with
        | nil => exact unbroken rfl (congrArg List.head? broken)
        | cons next rest => exact other rest rfl (congrArg (· :: rest) (List.cons.inj broken).1)
      have bracketToo : ¬(decide (character = ']') && isSectionEnd (rest ++ more)) = true := by
        rw [Bool.and_eq_true, decide_eq_true_iff] at bracket opened ⊢
        rintro ⟨rfl, ended⟩
        rw [isSectionEnd_append fun brief => opened ⟨rfl, brief⟩] at ended
        exact bracket ⟨rfl, ended⟩
      rw [List.cons_append, read?_true_cons otherToo mark, if_neg bracketToo, if_pos document,
        ih before last, Option.map_map]
      rfl
  | case7 => cases found

/-- A front of a stretch that cannot be read is not read with more behind it. -/
theorem read?_append_of_none {front : List Char} (refused : read? false front = none)
    (more : List Char) : read? true (front ++ more) = none := by
  fun_induction read? false front with
  | case1 => cases refused
  | case2 rest ih =>
      rw [List.cons_append, List.cons_append, read?, ih (Option.map_eq_none_iff.1 refused)]
      rfl
  | case3 => cases refused
  | case4 character rest other mark bracket =>
      rw [Bool.and_eq_true, decide_eq_true_iff] at bracket
      obtain ⟨rfl, ended⟩ := bracket
      have longer : isSectionEnd (rest ++ more) = true := by
        unfold isSectionEnd at ended
        split at ended
        · rfl
        · cases ended
      rw [List.cons_append, read?_true_cons (fun _ same => absurd same (by decide)) mark, longer]
      rfl
  | case5 => cases refused
  | case6 character rest other mark bracket opened document ih =>
      have otherToo : ∀ back, character = '\r' → rest ++ more = '\n' :: back → False := by
        rintro back rfl broken
        cases rest with
        | nil => cases refused
        | cons next rest => exact other rest rfl (congrArg (· :: rest) (List.cons.inj broken).1)
      rw [List.cons_append, read?_true_cons otherToo mark, ih (Option.map_eq_none_iff.1 refused)]
      simp
  | case7 character rest other mark bracket opened document =>
      have otherToo : ∀ back, character = '\r' → rest ++ more = '\n' :: back → False := by
        rintro back rfl -
        exact document (by decide)
      rw [List.cons_append, read?_true_cons otherToo mark, if_neg document, ite_self]

end Stretch

end WordStream.Markup

import WordStream.Text.Integer

/-!
# Reading integers back

An integer in its usual decimal notation is read back as it is, as long as it has no more digits
than a written integer may have.
-/

set_option autoImplicit false

namespace WordStream.Text

/-! ## Decimal digits -/

theorem digitValue?_of_isDigit {character : Char} (digit : character.isDigit = true) :
    digitValue? character = some (character.toNat - 48) := by
  obtain ⟨low, high⟩ : 48 ≤ character.toNat ∧ character.toNat ≤ 57 :=
    Char.isDigit_iff_toNat.1 digit
  have first : decimalZeros = 48 :: decimalZeros.tail := rfl
  rw [digitValue?, first, List.find?_cons_of_pos, Option.map_some]
  simp only [Bool.and_eq_true, decide_eq_true_eq]
  omega

theorem isWhiteSpace_of_isDigit {character : Char} (digit : character.isDigit = true) :
    isWhiteSpace character = false := by
  obtain ⟨low, high⟩ : 48 ≤ character.toNat ∧ character.toNat ≤ 57 :=
    Char.isDigit_iff_toNat.1 digit
  simp only [isWhiteSpace, inRanges, whiteSpaceRanges, List.any_eq_false]
  intro range member
  simp only [List.mem_cons, List.not_mem_nil, or_false] at member
  simp only [Bool.and_eq_true, decide_eq_true_eq]
  rcases member with rfl | rfl | rfl | rfl | rfl | rfl | rfl | rfl | rfl | rfl <;> omega

theorem isBlank_of_isDigit {character : Char} (digit : character.isDigit = true) :
    isBlank character = false := by
  obtain ⟨low, high⟩ : 48 ≤ character.toNat ∧ character.toNat ≤ 57 :=
    Char.isDigit_iff_toNat.1 digit
  have separator : inRanges [(0x1C, 0x1F)] character = false := by
    simp only [inRanges, List.any_cons, List.any_nil, Bool.or_false, Bool.and_eq_false_iff,
      decide_eq_false_iff_not]
    omega
  rw [isBlank, separator, isWhiteSpace_of_isDigit digit, Bool.or_false]

theorem followingDigitValues?_of_isDigit {characters : List Char}
    (digits : ∀ character ∈ characters, character.isDigit = true) :
    followingDigitValues? characters =
      some (characters.map fun character => character.toNat - 48) := by
  induction characters with
  | nil => rfl
  | cons character rest ih =>
      have first := digits character List.mem_cons_self
      have others := ih fun each member => digits each (List.mem_cons_of_mem _ member)
      rw [followingDigitValues?]
      · simp [digitValue?_of_isDigit first, others]
      · rintro _ _ rfl
        simp at first

theorem digitValues?_of_isDigit {characters : List Char} (filled : characters ≠ [])
    (digits : ∀ character ∈ characters, character.isDigit = true) :
    digitValues? characters = some (characters.map fun character => character.toNat - 48) := by
  cases characters with
  | nil => exact absurd rfl filled
  | cons character rest =>
      have first := digits character List.mem_cons_self
      have others := followingDigitValues?_of_isDigit
        fun each member => digits each (List.mem_cons_of_mem character member)
      simp [digitValues?, digitValue?_of_isDigit first, others]

/-! ## Signs and white space -/

theorem dropWhile_of_kept {drop : Char → Bool} {characters : List Char}
    (kept : ∀ character ∈ characters, drop character = false) :
    characters.dropWhile drop = characters := by
  cases characters with
  | nil => rfl
  | cons character rest =>
      exact List.dropWhile_cons_of_neg (by simp [kept character List.mem_cons_self])

theorem trimWhere_append {drop : Char → Bool} {before kept after : List Char}
    (dropBefore : ∀ character ∈ before, drop character = true)
    (keep : ∀ character ∈ kept, drop character = false)
    (dropAfter : ∀ character ∈ after, drop character = true) :
    trimWhere drop (before ++ (kept ++ after)) = kept := by
  have keepBackwards : ∀ character ∈ kept.reverse, drop character = false :=
    fun character member => keep character (List.mem_reverse.1 member)
  have dropBackwards : ∀ character ∈ after.reverse, drop character = true :=
    fun character member => dropAfter character (List.mem_reverse.1 member)
  rw [trimWhere, List.dropWhile_append_of_pos dropBefore]
  cases kept with
  | nil =>
      rw [List.nil_append, ← List.append_nil after, List.dropWhile_append_of_pos dropAfter]
      rfl
  | cons first others =>
      rw [List.cons_append, List.dropWhile_cons_of_neg (by simp [keep first List.mem_cons_self]),
        ← List.cons_append, List.reverse_append, List.dropWhile_append_of_pos dropBackwards,
        dropWhile_of_kept keepBackwards, List.reverse_reverse]

theorem trimWhere_of_kept {drop : Char → Bool} {characters : List Char}
    (kept : ∀ character ∈ characters, drop character = false) :
    trimWhere drop characters = characters := by
  have trimmed := trimWhere_append (List.forall_mem_nil _) kept (List.forall_mem_nil _)
  rwa [List.nil_append, List.append_nil] at trimmed

theorem splitSign_of_isDigit {characters : List Char}
    (digits : ∀ character ∈ characters, character.isDigit = true) :
    splitSign characters = (false, characters) := by
  unfold splitSign
  split
  · exact absurd (digits '-' List.mem_cons_self) (by decide)
  · exact absurd (digits '+' List.mem_cons_self) (by decide)
  · rfl

/-! ## The decimal notation -/

theorem isDigit_of_mem_decimal (number : Nat) :
    ∀ character ∈ Nat.toDigits 10 number, character.isDigit = true :=
  fun _ member => Nat.isDigit_of_mem_toDigits (by decide) (by decide) member

theorem isWhiteSpace_of_mem_decimal (number : Nat) :
    ∀ character ∈ Nat.toDigits 10 number, isWhiteSpace character = false :=
  fun character member => isWhiteSpace_of_isDigit (isDigit_of_mem_decimal number character member)

theorem ofDigitValues_decimal (number : Nat) :
    ofDigitValues ((Nat.toDigits 10 number).map fun character => character.toNat - 48) =
      number := by
  rw [ofDigitValues, List.foldl_map]
  exact Nat.ofDigitChars_toDigits (by decide) (by decide)

theorem readInteger?_of_splitSign {text : String} {negative : Bool} {number : Nat}
    (kept : ∀ character ∈ text.toList, isWhiteSpace character = false)
    (split : splitSign text.toList = (negative, Nat.toDigits 10 number))
    (short : (Nat.toDigits 10 number).length ≤ maxIntegerDigits) :
    readInteger? text = some (if negative then -(number : Int) else number) := by
  have values := digitValues?_of_isDigit Nat.toDigits_ne_nil (isDigit_of_mem_decimal number)
  have allowed : guard (((Nat.toDigits 10 number).map fun character =>
      character.toNat - 48).length ≤ maxIntegerDigits) = some () :=
    if_pos (by rwa [List.length_map])
  rw [readInteger?, trimWhere_of_kept kept, split]
  change (digitValues? (Nat.toDigits 10 number)).bind _ = _
  rw [values, Option.bind_some]
  change Option.bind (guard _) _ = _
  rw [allowed, Option.bind_some, ofDigitValues_decimal]
  rfl

/-- An integer that is not too long is read back. -/
theorem readInteger?_toString {value : Int}
    (short : (Nat.toDigits 10 value.natAbs).length ≤ maxIntegerDigits) :
    readInteger? (toString value) = some value := by
  cases value with
  | ofNat number =>
      have characters : (toString (Int.ofNat number)).toList = Nat.toDigits 10 number :=
        Nat.toList_repr
      have split : splitSign (toString (Int.ofNat number)).toList =
          (false, Nat.toDigits 10 number) := by
        rw [characters]
        exact splitSign_of_isDigit (isDigit_of_mem_decimal number)
      have kept : ∀ character ∈ (toString (Int.ofNat number)).toList,
          isWhiteSpace character = false := by
        rw [characters]
        exact isWhiteSpace_of_mem_decimal number
      exact readInteger?_of_splitSign kept split short
  | negSucc number =>
      have characters : (toString (Int.negSucc number)).toList =
          '-' :: Nat.toDigits 10 (number + 1) := by
        simp [Int.repr_eq_if]
      have split : splitSign (toString (Int.negSucc number)).toList =
          (true, Nat.toDigits 10 (number + 1)) := by
        rw [characters, splitSign]
      have kept : ∀ character ∈ (toString (Int.negSucc number)).toList,
          isWhiteSpace character = false := by
        rw [characters]
        rintro character (_ | ⟨_, member⟩)
        · rfl
        · exact isWhiteSpace_of_mem_decimal (number + 1) character member
      exact readInteger?_of_splitSign kept split short

end WordStream.Text

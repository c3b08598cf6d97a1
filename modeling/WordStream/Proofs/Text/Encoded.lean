import WordStream.Text.Utf8

/-!
# Bytes of texts

The bytes of a text are those of its characters. A character of ASCII has one byte, its code; the bytes of any
other character are no codes of ASCII.
-/

set_option autoImplicit false

namespace WordStream.Text

theorem toList_toUTF8 (text : String) :
    text.toUTF8.data.toList = text.toList.flatMap String.utf8EncodeChar := by
  obtain ⟨characters, rfl⟩ : ∃ characters, text = String.ofList characters :=
    ⟨text.toList, String.ofList_toList.symm⟩
  simp [List.utf8Encode]

theorem utf8EncodeChar_of_lt {character : Char} (plain : character.toNat < 128) :
    String.utf8EncodeChar character = [UInt8.ofNat character.toNat] := by
  have size : character.utf8Size = 1 := by
    rw [Char.utf8Size_eq_one_iff]
    exact Nat.le_of_lt_succ plain
  rw [String.utf8EncodeChar_eq_singleton size]
  rfl

theorem flatMap_utf8EncodeChar_of_lt {characters : List Char}
    (plain : ∀ character ∈ characters, character.toNat < 128) :
    characters.flatMap String.utf8EncodeChar =
      characters.map fun character => UInt8.ofNat character.toNat := by
  induction characters with
  | nil => rfl
  | cons first others ih =>
      rw [List.forall_mem_cons] at plain
      rw [List.flatMap_cons, List.map_cons, utf8EncodeChar_of_lt plain.1, ih plain.2]
      rfl

theorem utf8EncodeChar_ne_nil (character : Char) : String.utf8EncodeChar character ≠ [] := by
  unfold String.utf8EncodeChar
  dsimp only
  split
  · exact List.cons_ne_nil _ _
  · split
    · exact List.cons_ne_nil _ _
    · split <;> exact List.cons_ne_nil _ _

theorem le_of_mem_utf8EncodeChar {character : Char} {byte : UInt8} (foreign : 128 ≤ character.toNat)
    (member : byte ∈ String.utf8EncodeChar character) : 128 ≤ byte.toNat := by
  have above : ¬character.val.toNat ≤ 127 := Nat.not_le_of_lt foreign
  unfold String.utf8EncodeChar at member
  dsimp only at member
  rw [if_neg above] at member
  split at member
  · simp only [List.mem_cons, List.not_mem_nil, or_false] at member
    rcases member with rfl | rfl <;> simp only [UInt8.toNat_ofNat'] <;> omega
  · split at member
    · simp only [List.mem_cons, List.not_mem_nil, or_false] at member
      rcases member with rfl | rfl | rfl <;> simp only [UInt8.toNat_ofNat'] <;> omega
    · simp only [List.mem_cons, List.not_mem_nil, or_false] at member
      rcases member with rfl | rfl | rfl | rfl <;> simp only [UInt8.toNat_ofNat'] <;> omega

theorem length_le_flatMap_utf8EncodeChar (characters : List Char) :
    characters.length ≤ (characters.flatMap String.utf8EncodeChar).length := by
  induction characters with
  | nil => exact Nat.le_refl _
  | cons first others ih =>
      have size := first.utf8Size_pos
      rw [List.flatMap_cons, List.length_append, String.length_utf8EncodeChar, List.length_cons]
      omega

/-- A text of which there are no more bytes than characters is of ASCII. -/
theorem lt_of_length_flatMap_le {characters : List Char}
    (few : (characters.flatMap String.utf8EncodeChar).length ≤ characters.length) :
    ∀ character ∈ characters, character.toNat < 128 := by
  induction characters with
  | nil => exact fun _ member => nomatch member
  | cons first others ih =>
      have size := first.utf8Size_pos
      have rest := length_le_flatMap_utf8EncodeChar others
      rw [List.flatMap_cons, List.length_append, String.length_utf8EncodeChar, List.length_cons] at few
      have single : first.utf8Size = 1 := by omega
      exact List.forall_mem_cons.2
        ⟨Nat.lt_succ_of_le (Char.utf8Size_eq_one_iff.1 single), ih (by omega)⟩

end WordStream.Text

import Mathlib.Algebra.Order.Group.Nat
import WordStream.Date.Reader
import WordStream.Proofs.Text.Encoded

/-!
# Digits of time stamps

The fields of a time stamp are written as ASCII digits, as many as the field has. Read in the same number,
from bytes that may go on, they give the field back.
-/

set_option autoImplicit false

namespace WordStream.Date

variable {character : Char} {count number before : Nat} {rest : List UInt8}

/-! ## Bytes of ASCII text -/

def asciiBytes (characters : List Char) : List UInt8 :=
  characters.map ascii

@[simp]
theorem asciiBytes_nil : asciiBytes [] = [] := rfl

@[simp]
theorem asciiBytes_cons (character : Char) (characters : List Char) :
    asciiBytes (character :: characters) = ascii character :: asciiBytes characters := rfl

@[simp]
theorem asciiBytes_append (former latter : List Char) :
    asciiBytes (former ++ latter) = asciiBytes former ++ asciiBytes latter :=
  List.map_append

@[simp]
theorem length_asciiBytes (characters : List Char) :
    (asciiBytes characters).length = characters.length :=
  List.length_map _

theorem toUTF8_ofList {characters : List Char}
    (plain : ∀ character ∈ characters, character.toNat < 128) :
    (String.ofList characters).toUTF8.data.toList = asciiBytes characters := by
  rw [Text.toList_toUTF8, String.toList_ofList]
  exact Text.flatMap_utf8EncodeChar_of_lt plain

/-! ## Digits -/

theorem isDigit_of_mem_writeDigits (member : character ∈ writeDigits count number) :
    character.isDigit = true := by
  induction count generalizing number with
  | zero => cases member
  | succ count ih =>
      rcases List.mem_append.1 member with former | last
      · exact ih former
      · rw [List.mem_singleton.1 last]
        have digits : ∀ value < 10, (Nat.digitChar value).isDigit = true := by decide
        exact digits _ (Nat.mod_lt _ (by decide))

theorem digit?_digitChar {value : Nat} (small : value < 10) :
    digit? (ascii (Nat.digitChar value)) = some value := by
  have digits : ∀ value < 10, digit? (ascii (Nat.digitChar value)) = some value := by decide
  exact digits value small

theorem isDigit_ascii (digit : character.isDigit = true) : isDigit (ascii character) = true := by
  obtain ⟨low, high⟩ : 48 ≤ character.toNat ∧ character.toNat ≤ 57 :=
    Char.isDigit_iff_toNat.1 digit
  have within : (ascii '0' ≤ ascii character && ascii character ≤ ascii '9') = true := by
    simp [ascii, UInt8.le_iff_toNat_le]
    omega
  rw [isDigit, digit?, if_pos within]
  rfl

/-- What is written of a field begins with a digit. -/
theorem exists_writeDigits_eq_cons (count number : Nat) :
    ∃ first others, asciiBytes (writeDigits (count + 1) number) = first :: others ∧
      isDigit first = true := by
  cases written : writeDigits (count + 1) number with
  | nil =>
      have length := length_writeDigits (count + 1) number
      rw [written] at length
      cases length
  | cons first others =>
      refine ⟨ascii first, asciiBytes others, rfl, isDigit_ascii ?_⟩
      exact isDigit_of_mem_writeDigits (written ▸ List.mem_cons_self)

theorem head?_writeDigits_ne {byte : UInt8} (other : isDigit byte = false) :
    (asciiBytes (writeDigits (count + 1) number) ++ rest).head? ≠ some byte := by
  obtain ⟨first, others, written, digit⟩ := exists_writeDigits_eq_cons count number
  rw [written]
  intro same
  rw [← Option.some.inj same, digit] at other
  cases other

theorem byteAt_writeDigits_ne {byte : UInt8} (other : isDigit byte = false) :
    byteAt (asciiBytes (writeDigits (count + 1) number) ++ rest) 0 ≠ byte := by
  obtain ⟨first, others, written, digit⟩ := exists_writeDigits_eq_cons count number
  rw [written]
  rintro rfl
  cases digit.symm.trans other

/-! ## What texts are made of -/

/-- Whether all characters of a text are digits or among some marks. -/
def MadeOf (marks characters : List Char) : Prop :=
  ∀ character ∈ characters, character.isDigit = true ∨ character ∈ marks

section Characters

variable {marks : List Char}

@[simp]
theorem madeOf_nil : MadeOf marks [] := nofun

@[simp]
theorem madeOf_cons {character : Char} {characters : List Char} :
    MadeOf marks (character :: characters) ↔
      (character.isDigit = true ∨ character ∈ marks) ∧ MadeOf marks characters :=
  List.forall_mem_cons

@[simp]
theorem madeOf_append {former latter : List Char} :
    MadeOf marks (former ++ latter) ↔ MadeOf marks former ∧ MadeOf marks latter :=
  List.forall_mem_append

@[simp]
theorem madeOf_writeDigits (count number : Nat) : MadeOf marks (writeDigits count number) :=
  fun _ member => .inl (isDigit_of_mem_writeDigits member)

@[simp]
theorem madeOf_writeFraction (dot : '.' ∈ marks) (microsecond : Nat) :
    MadeOf marks (writeFraction microsecond) := by
  unfold writeFraction
  split <;> simp [dot]

end Characters

/-! ## Reading -/

theorem readNumber?_add (former latter : Nat) (number : Nat) (bytes : List UInt8) :
    readNumber? (former + latter) number bytes =
      (readNumber? former number bytes).bind fun (number, rest) => readNumber? latter number rest := by
  induction former generalizing number bytes with
  | zero => simp [readNumber?]
  | succ former ih =>
      rw [Nat.add_right_comm]
      cases bytes with
      | nil => rfl
      | cons byte rest =>
          simp only [readNumber?, Option.bind_eq_bind, Option.bind_assoc, ih]

theorem readNumber?_writeDigits :
    readNumber? count before (asciiBytes (writeDigits count number) ++ rest) =
      some (before * 10 ^ count + number % 10 ^ count, rest) := by
  induction count generalizing number rest with
  | zero => simp [readNumber?, writeDigits, Nat.mod_one]
  | succ count ih =>
      have last : number % 10 < 10 := Nat.mod_lt _ (by decide)
      rw [readNumber?_add, writeDigits, asciiBytes_append, List.append_assoc, ih]
      have digits : before * 10 ^ (count + 1) + number % 10 ^ (count + 1) =
          10 * (before * 10 ^ count + number / 10 % 10 ^ count) + number % 10 := by
        rw [Nat.pow_succ', Nat.mod_mul, Nat.mul_add, Nat.mul_left_comm]
        omega
      rw [digits]
      simp [readNumber?, digit?_digitChar last]

theorem readNumber?_of_lt (small : number < 10 ^ count) :
    readNumber? count 0 (asciiBytes (writeDigits count number) ++ rest) = some (number, rest) := by
  rw [readNumber?_writeDigits, Nat.zero_mul, Nat.zero_add, Nat.mod_eq_of_lt small]

end WordStream.Date

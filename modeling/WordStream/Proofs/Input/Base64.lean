import Mathlib.Tactic.Ring
import WordStream.Input.Base64
import WordStream.Proofs.Text.Encoded

/-!
# Base64 texts

The text of bytes is their bits, cut into groups of six, with a letter of the alphabet for each group and equals
signs up to a multiple of four. It is read back as the bytes. The reader takes a text character by
character: one outside of the alphabet spoils it, and so does one that follows an equals sign without being
one. Four characters give three bytes at most.
-/

set_option autoImplicit false

namespace WordStream.Input.Base64

/-! ## The text of bytes -/

/-- The characters that stand for values, in the order of their values. -/
def alphabet : List Char :=
  "ABCDEFGHIJKLMNOPQRSTUVWXYZabcdefghijklmnopqrstuvwxyz0123456789+/".toList

/-- The bits of a byte, the highest one first. -/
def bits (byte : UInt8) : List Bool :=
  [7, 6, 5, 4, 3, 2, 1, 0].map byte.toNat.testBit

/-- The number that bits give, of which the first is the highest. -/
def number (bits : List Bool) : Nat :=
  bits.foldl (fun value bit => 2 * value + bit.toNat) 0

/-- Cuts bits into groups of six, the last of which is filled up with zeros. -/
def sixes : List Bool → List (List Bool)
  | [] => []
  | first :: second :: third :: fourth :: fifth :: sixth :: rest =>
      [first, second, third, fourth, fifth, sixth] :: sixes rest
  | few => [few ++ List.replicate (6 - few.length) false]

/-- The letters for bits, without the equals signs. -/
def letters (bits : List Bool) : List Char :=
  (sixes bits).map fun group => alphabet.getD (number group) '='

/-- Fills letters up with equals signs. -/
def filled (letters : List Char) : List Char :=
  letters ++ List.replicate ((4 - letters.length % 4) % 4) '='

/-- The base64 text of bytes. -/
def textOf (bytes : ByteArray) : String :=
  String.ofList (filled (letters (bytes.data.toList.flatMap bits)))

theorem number_append (former latter : List Bool) :
    number (former ++ latter) = 2 ^ latter.length * number former + number latter := by
  have onward : ∀ (bits : List Bool) (value : Nat),
      bits.foldl (fun value bit => 2 * value + bit.toNat) value =
        2 ^ bits.length * value + number bits := by
    intro bits
    induction bits with
    | nil => simp [number]
    | cons bit bits ih =>
        intro value
        have first : number (bit :: bits) = 2 ^ bits.length * bit.toNat + number bits := by
          rw [number, List.foldl_cons, ih, Nat.mul_zero, Nat.zero_add]
        rw [List.foldl_cons, ih, first, List.length_cons, pow_succ]
        ring
  rw [number, List.foldl_append]
  exact onward latter _

/-- The high bits of a byte give its quotient, and the low ones its remainder. -/
theorem number_bits (byte : UInt8) {count : Nat} (few : count ≤ 8) :
    number ((bits byte).take count) = byte.toNat / 2 ^ (8 - count) ∧
      number ((bits byte).drop count) = byte.toNat % 2 ^ (8 - count) := by
  have all : ∀ count < 9, ∀ code < 256,
      number (([7, 6, 5, 4, 3, 2, 1, 0].map code.testBit).take count) = code / 2 ^ (8 - count) ∧
        number (([7, 6, 5, 4, 3, 2, 1, 0].map code.testBit).drop count) =
          code % 2 ^ (8 - count) := by
    decide +kernel
  exact all count (Nat.lt_succ_of_le few) byte.toNat byte.toNat_lt

/-- Low bits of a byte before high bits of the next one. -/
theorem number_across (first second : UInt8) {low high : Nat} (lowFew : low ≤ 8)
    (highFew : high ≤ 8) :
    number ((bits first).drop low ++ (bits second).take high) =
      2 ^ high * (first.toNat % 2 ^ (8 - low)) + second.toNat / 2 ^ (8 - high) := by
  have length : ((bits second).take high).length = high :=
    List.length_take_of_le (Nat.le_trans highFew (Nat.le_of_eq rfl))
  rw [number_append, length, (number_bits first lowFew).2, (number_bits second highFew).1]

/-- Low bits of a byte before zeros. -/
theorem number_ending (byte : UInt8) {low : Nat} (lowFew : low ≤ 8) (zeros : Nat) :
    number ((bits byte).drop low ++ List.replicate zeros false) =
      2 ^ zeros * (byte.toNat % 2 ^ (8 - low)) := by
  have none : ∀ zeros : Nat, number (List.replicate zeros false) = 0 := by
    intro zeros
    induction zeros with
    | zero => rfl
    | succ zeros ih => rw [List.replicate_succ, number, List.foldl_cons]; exact ih
  rw [number_append, List.length_replicate, (number_bits byte lowFew).2, none, Nat.add_zero]

theorem letter_eq {group : List Bool} {value : Nat} (told : number group = value)
    (small : value < 64) : alphabet.getD (number group) '=' = character value := by
  have all : ∀ value < 64, alphabet.getD value '=' = character value := by decide +kernel
  rw [told, all value small]

section Letters

variable (first second third : UInt8) (rest : List Bool)

theorem letter_first :
    alphabet.getD (number ((bits first).take 6)) '=' = character (first.toNat / 4) := by
  have bound := first.toNat_lt
  exact letter_eq (number_bits first (by decide)).1 (by omega)

theorem letter_second :
    alphabet.getD (number ((bits first).drop 6 ++ (bits second).take 4)) '=' =
      character (first.toNat % 4 * 16 + second.toNat / 16) := by
  have bound := second.toNat_lt
  refine letter_eq ?_ (by omega)
  rw [number_across first second (by decide) (by decide), Nat.mul_comm]
  rfl

theorem letter_third :
    alphabet.getD (number ((bits second).drop 4 ++ (bits third).take 2)) '=' =
      character (second.toNat % 16 * 4 + third.toNat / 64) := by
  have bound := third.toNat_lt
  refine letter_eq ?_ (by omega)
  rw [number_across second third (by decide) (by decide), Nat.mul_comm]
  rfl

theorem letters_one :
    letters (bits first) = [character (first.toNat / 4), character (first.toNat % 4 * 16)] := by
  have cut : sixes (bits first) =
      [(bits first).take 6, (bits first).drop 6 ++ List.replicate 4 false] := rfl
  have last : number ((bits first).drop 6 ++ List.replicate 4 false) = first.toNat % 4 * 16 := by
    rw [number_ending first (by decide), Nat.mul_comm]
    rfl
  rw [letters, cut, List.map_cons, List.map_singleton, letter_first, letter_eq last (by omega)]

theorem letters_two :
    letters (bits first ++ bits second) =
      [character (first.toNat / 4), character (first.toNat % 4 * 16 + second.toNat / 16),
        character (second.toNat % 16 * 4)] := by
  have cut : sixes (bits first ++ bits second) =
      [(bits first).take 6, (bits first).drop 6 ++ (bits second).take 4,
        (bits second).drop 4 ++ List.replicate 2 false] := rfl
  have last : number ((bits second).drop 4 ++ List.replicate 2 false) =
      second.toNat % 16 * 4 := by
    rw [number_ending second (by decide), Nat.mul_comm]
    rfl
  rw [letters, cut, List.map_cons, List.map_cons, List.map_singleton, letter_first, letter_second,
    letter_eq last (by omega)]

theorem letters_three :
    letters (bits first ++ (bits second ++ (bits third ++ rest))) =
      character (first.toNat / 4) :: character (first.toNat % 4 * 16 + second.toNat / 16) ::
        character (second.toNat % 16 * 4 + third.toNat / 64) :: character (third.toNat % 64) ::
          letters rest := by
  have cut : sixes (bits first ++ (bits second ++ (bits third ++ rest))) =
      (bits first).take 6 :: ((bits first).drop 6 ++ (bits second).take 4) ::
        ((bits second).drop 4 ++ (bits third).take 2) :: (bits third).drop 2 :: sixes rest := rfl
  have last : number ((bits third).drop 2) = third.toNat % 64 := (number_bits third (by decide)).2
  rw [letters, cut, List.map_cons, List.map_cons, List.map_cons, List.map_cons, letter_first,
    letter_second, letter_third, letter_eq last (by omega)]
  rfl

end Letters

theorem filled_four (first second third fourth : Char) (others : List Char) :
    filled (first :: second :: third :: fourth :: others) =
      first :: second :: third :: fourth :: filled others := by
  simp only [filled, List.length_cons, Nat.add_assoc, Nat.reduceAdd, Nat.add_mod_right,
    List.cons_append]

theorem writeAfter_eq (done : List Char) (bytes : List UInt8) :
    writeAfter done bytes = done.reverse ++ filled (letters (bytes.flatMap bits)) := by
  fun_induction writeAfter done bytes with
  | case1 => simp [letters, sixes, filled]
  | case2 done first => simp [letters_one, filled]
  | case3 done first second => simp [letters_two, filled]
  | case4 done first second third rest ih =>
      rw [ih]
      simp only [List.flatMap_cons, letters_three, filled_four, List.reverse_cons, List.append_assoc,
        List.singleton_append]
      rfl

/-- Three bytes are written as four letters. -/
theorem writeAfter_three (first second third : UInt8) (rest : List UInt8) :
    writeAfter [] (first :: second :: third :: rest) =
      [first.toNat / 4, first.toNat % 4 * 16 + second.toNat / 16,
          second.toNat % 16 * 4 + third.toNat / 64, third.toNat % 64].map character ++
        writeAfter [] rest := by
  rw [writeAfter, writeAfter_eq, writeAfter_eq]
  rfl

/-- What is written of bytes is their base64 text. -/
theorem write_eq_textOf (bytes : ByteArray) : write bytes = textOf bytes := by
  rw [write, writeAfter_eq, textOf]
  rfl

example : textOf "foob".toUTF8 = "Zm9vYg==" := by decide +kernel

/-! ## Reading character by character -/

namespace Reading

/-- Takes the bytes of a character. -/
def addCharacter (reading : Reading) (character : Char) : Reading :=
  (String.utf8EncodeChar character).foldl add reading

theorem sextet?_of_lt {character : Char} (plain : character.toNat < 128) :
    sextet? (UInt8.ofNat character.toNat) = alphabet.idxOf? character := by
  have all : ∀ code < 128, sextet? (UInt8.ofNat code) = alphabet.idxOf? (Char.ofNat code) := by
    decide +kernel
  rw [all character.toNat plain, Char.ofNat_toNat]

theorem sextet?_of_le {byte : UInt8} (foreign : 128 ≤ byte.toNat) : sextet? byte = none := by
  unfold sextet?
  dsimp only
  rw [if_neg (by omega), if_neg (by omega), if_neg (by omega), if_neg (by omega), if_neg (by omega)]

theorem lt_of_mem_alphabet {character : Char} (member : character ∈ alphabet) :
    character.toNat < 128 := by
  have all : alphabet.all (fun character => decide (character.toNat < 128)) = true := by
    decide +kernel
  exact of_decide_eq_true (List.all_eq_true.1 all character member)

theorem addCharacter_of_lt (reading : Reading) {character : Char} (plain : character.toNat < 128) :
    reading.addCharacter character = reading.add (UInt8.ofNat character.toNat) := by
  rw [addCharacter, Text.utf8EncodeChar_of_lt plain, List.foldl_cons, List.foldl_nil]

theorem addCharacter_equals (reading : Reading) :
    reading.addCharacter '=' = { reading with padding := reading.padding + 1 } := by
  rw [addCharacter_of_lt reading (by decide)]
  rfl

theorem add_of_ne (reading : Reading) {character : Char} (plain : character.toNat < 128)
    (other : character ≠ '=') :
    reading.add (UInt8.ofNat character.toNat) =
      match alphabet.idxOf? character with
      | some value =>
          if reading.padding = 0 then reading.addValue value else { reading with spoilt := true }
      | none => { reading with spoilt := true } := by
  have sign : (UInt8.ofNat character.toNat).toNat ≠ 61 := by
    rw [UInt8.toNat_ofNat', Nat.mod_eq_of_lt (by omega)]
    exact fun same => other (Char.toNat_inj.1 same)
  cases valued : alphabet.idxOf? character with
  | none => simp only [add, if_neg sign, sextet?_of_lt plain, valued]
  | some value => simp only [add, if_neg sign, sextet?_of_lt plain, valued]

theorem addCharacter_letter (reading : Reading) {value : Nat} {letter : Char}
    (valued : alphabet.idxOf? letter = some value) :
    reading.addCharacter letter =
      if reading.padding = 0 then reading.addValue value else { reading with spoilt := true } := by
  have member : letter ∈ alphabet := List.isSome_idxOf?.1 (by rw [valued]; rfl)
  have other : letter ≠ '=' := by
    rintro rfl
    revert member
    decide +kernel
  have plain := lt_of_mem_alphabet member
  rw [addCharacter_of_lt reading plain, add_of_ne reading plain other, valued]

/-- A character that is no letter and no equals sign spoils a reading. -/
theorem addCharacter_foreign (reading : Reading) {character : Char} (foreign : character ∉ alphabet)
    (other : character ≠ '=') : reading.addCharacter character = { reading with spoilt := true } := by
  by_cases plain : character.toNat < 128
  · rw [addCharacter_of_lt reading plain, add_of_ne reading plain other,
      List.idxOf?_eq_none_iff.2 foreign]
  · have beyond : 128 ≤ character.toNat := Nat.le_of_not_lt plain
    have spoils : ∀ (bytes : List UInt8) (reading : Reading), bytes ≠ [] →
        (∀ byte ∈ bytes, 128 ≤ byte.toNat) →
          bytes.foldl add reading = { reading with spoilt := true } := by
      intro bytes
      induction bytes with
      | nil => exact fun _ filled => absurd rfl filled
      | cons byte bytes ih =>
          intro reading _ high
          have first := high byte List.mem_cons_self
          have spoilt : reading.add byte = { reading with spoilt := true } := by
            rw [add, if_neg (by omega), sextet?_of_le first]
          rw [List.foldl_cons, spoilt]
          cases bytes with
          | nil => rfl
          | cons second rest =>
              rw [ih _ (List.cons_ne_nil _ _) fun byte member =>
                high byte (List.mem_cons_of_mem _ member)]
    exact spoils _ reading (Text.utf8EncodeChar_ne_nil character) fun byte =>
      Text.le_of_mem_utf8EncodeChar beyond

end Reading

theorem read?_eq_foldl_characters (text : String) :
    read? text = (text.toList.foldl Reading.addCharacter {}).finish := by
  rw [read?_eq, Text.toList_toUTF8, List.foldl_flatMap]
  rfl

/-! ## Texts that are refused -/

namespace Reading

variable {reading : Reading}

/-- A character is an equals sign, a letter, or foreign. -/
theorem character_cases (character : Char) :
    character = '=' ∨ (∃ value, alphabet.idxOf? character = some value) ∨
      (character ∉ alphabet ∧ character ≠ '=') := by
  by_cases equals : character = '='
  · exact .inl equals
  · cases valued : alphabet.idxOf? character with
    | some value => exact .inr (.inl ⟨value, rfl⟩)
    | none => exact .inr (.inr ⟨List.idxOf?_eq_none_iff.1 valued, equals⟩)

theorem addValue_spoilt (reading : Reading) (value : Nat) :
    (reading.addValue value).spoilt = reading.spoilt := by
  unfold addValue
  split <;> rfl

theorem addValue_padding (reading : Reading) (value : Nat) :
    (reading.addValue value).padding = reading.padding := by
  unfold addValue
  split <;> rfl

/-- What a reading is spoilt by is not made good, and an equals sign is not forgotten. -/
theorem addCharacter_keeps (reading : Reading) (character : Char) :
    (reading.spoilt = true → (reading.addCharacter character).spoilt = true) ∧
      reading.padding ≤ (reading.addCharacter character).padding := by
  rcases character_cases character with rfl | ⟨value, valued⟩ | ⟨foreign, other⟩
  · rw [addCharacter_equals]
    exact ⟨id, Nat.le_succ _⟩
  · rw [addCharacter_letter reading valued]
    split
    · rw [addValue_spoilt, addValue_padding]
      exact ⟨id, Nat.le_refl _⟩
    · exact ⟨fun _ => rfl, Nat.le_refl _⟩
  · rw [addCharacter_foreign reading foreign other]
    exact ⟨fun _ => rfl, Nat.le_refl _⟩

theorem foldl_keeps (characters : List Char) (reading : Reading) :
    (reading.spoilt = true → (characters.foldl addCharacter reading).spoilt = true) ∧
      reading.padding ≤ (characters.foldl addCharacter reading).padding := by
  induction characters generalizing reading with
  | nil => exact ⟨id, Nat.le_refl _⟩
  | cons character characters ih =>
      obtain ⟨spoilt, padding⟩ := reading.addCharacter_keeps character
      obtain ⟨later, more⟩ := ih (reading.addCharacter character)
      exact ⟨later ∘ spoilt, padding.trans more⟩

theorem finish_of_spoilt (spoilt : reading.spoilt = true) : reading.finish = none := by
  rw [finish, spoilt]
  rfl

end Reading

theorem read?_of_foreign {text : String} {character : Char} (member : character ∈ text.toList)
    (foreign : character ∉ alphabet) (other : character ≠ '=') : read? text = none := by
  obtain ⟨front, back, split⟩ := List.append_of_mem member
  rw [read?_eq_foldl_characters, split, List.foldl_append, List.foldl_cons,
    Reading.addCharacter_foreign _ foreign other]
  exact Reading.finish_of_spoilt ((Reading.foldl_keeps back _).1 rfl)

theorem read?_of_misplaced {text : String} {front middle back : List Char} {character : Char}
    (split : text.toList = front ++ '=' :: (middle ++ character :: back))
    (other : character ≠ '=') : read? text = none := by
  rw [read?_eq_foldl_characters, split, List.foldl_append, List.foldl_cons, List.foldl_append,
    List.foldl_cons]
  generalize front.foldl Reading.addCharacter {} = before
  have padded := (Reading.foldl_keeps middle (before.addCharacter '=')).2
  rw [Reading.addCharacter_equals] at padded ⊢
  generalize middle.foldl Reading.addCharacter { before with padding := before.padding + 1 } =
    reading at padded ⊢
  have padded : reading.padding ≠ 0 := Nat.ne_of_gt (Nat.lt_of_lt_of_le before.padding.succ_pos padded)
  have spoilt : (reading.addCharacter character).spoilt = true := by
    rcases Reading.character_cases character with equals | ⟨value, valued⟩ | ⟨foreign, -⟩
    · exact absurd equals other
    · rw [Reading.addCharacter_letter reading valued, if_neg padded]
    · rw [Reading.addCharacter_foreign reading foreign other]
  exact Reading.finish_of_spoilt ((Reading.foldl_keeps back _).1 spoilt)

/-! ## Sizes -/

namespace Reading

/-- Whether a reading has given no more bytes than some characters can give: three for four. -/
def Within (reading : Reading) (characters : Nat) : Prop :=
  reading.count < 4 ∧ 4 * reading.output.size + (4 - reading.count) % 4 ≤ 3 * characters

theorem Within.addValue {reading : Reading} {characters : Nat} (within : reading.Within characters)
    (value : Nat) : (reading.addValue value).Within (characters + 1) := by
  obtain ⟨few, fits⟩ := within
  have counts : reading.count = 0 ∨ reading.count = 1 ∨ reading.count = 2 ∨ reading.count = 3 := by
    omega
  unfold Within
  rcases counts with count | count | count | count <;>
    simp only [Reading.addValue, count, ByteArray.size_push] at fits ⊢ <;> omega

theorem Within.addCharacter {reading : Reading} {characters : Nat}
    (within : reading.Within characters) (character : Char) :
    (reading.addCharacter character).Within (characters + 1) := by
  have more : reading.Within (characters + 1) := ⟨within.1, within.2.trans (by omega)⟩
  rcases character_cases character with rfl | ⟨value, valued⟩ | ⟨foreign, other⟩
  · rw [addCharacter_equals]
    exact more
  · rw [addCharacter_letter reading valued]
    split
    · exact within.addValue value
    · exact more
  · rw [addCharacter_foreign reading foreign other]
    exact more

theorem Within.foldl {reading : Reading} {before : Nat} (within : reading.Within before)
    (characters : List Char) :
    (characters.foldl Reading.addCharacter reading).Within (before + characters.length) := by
  induction characters generalizing reading before with
  | nil => exact within
  | cons character characters ih =>
      have := ih (within.addCharacter character)
      rwa [Nat.add_assoc, Nat.add_comm 1] at this

end Reading

/-- Four characters give three bytes at most. -/
theorem size_le_of_read? {text : String} {bytes : ByteArray} (read : read? text = some bytes) :
    4 * bytes.size ≤ 3 * text.length := by
  have start : Reading.Within {} 0 := ⟨Nat.zero_lt_succ _, Nat.le_refl _⟩
  have within := start.foldl text.toList
  rw [read?_eq_foldl_characters] at read
  unfold Reading.finish at read
  split at read
  · obtain rfl := Option.some.inj read
    unfold Reading.Within at within
    rw [Nat.zero_add, String.length_toList] at within
    omega
  · cases read

/-! ## The round trip -/

namespace Reading

variable {output : ByteArray}

/-- Letters for values are taken as the values. -/
theorem foldl_character {values : List Nat} (small : ∀ value ∈ values, value < 64)
    {reading : Reading} (unpadded : reading.padding = 0) :
    (values.map character).foldl addCharacter reading = values.foldl addValue reading := by
  have all : ∀ value < 64, alphabet.idxOf? (character value) = some value := by decide +kernel
  induction values generalizing reading with
  | nil => rfl
  | cons value values ih =>
      have valued := all value (small value List.mem_cons_self)
      rw [List.map_cons, List.foldl_cons, addCharacter_letter reading valued, if_pos unpadded,
        List.foldl_cons]
      refine ih (fun other member => small other (List.mem_cons_of_mem _ member)) ?_
      rw [addValue_padding, unpadded]

section Groups

variable (first second third : UInt8)

theorem toUInt8_first (after : Nat) (small : after < 16) :
    (first.toNat / 4 * 4 + (first.toNat % 4 * 16 + after) / 16).toUInt8 = first := by
  have whole : first.toNat / 4 * 4 + (first.toNat % 4 * 16 + after) / 16 = first.toNat := by omega
  rw [whole]
  exact UInt8.ofNat_toNat

theorem toUInt8_second {before : Nat} (after : Nat) (small : after < 4) :
    ((before * 16 + second.toNat / 16) % 16 * 16 + (second.toNat % 16 * 4 + after) / 4).toUInt8 =
      second := by
  have bound := second.toNat_lt
  have whole : (before * 16 + second.toNat / 16) % 16 * 16 + (second.toNat % 16 * 4 + after) / 4 =
      second.toNat := by omega
  rw [whole]
  exact UInt8.ofNat_toNat

theorem toUInt8_third {before : Nat} :
    ((before * 4 + third.toNat / 64) % 4 * 64 + third.toNat % 64).toUInt8 = third := by
  have bound := third.toNat_lt
  have whole : (before * 4 + third.toNat / 64) % 4 * 64 + third.toNat % 64 = third.toNat := by omega
  rw [whole]
  exact UInt8.ofNat_toNat

end Groups

/-- What is written of bytes gives the bytes again, after those that were given before. -/
theorem finish_foldl_writeAfter : ∀ (bytes : List UInt8) (output : ByteArray),
    ((writeAfter [] bytes).foldl addCharacter { output }).finish =
      some (bytes.foldl ByteArray.push output)
  | [], output => rfl
  | [first], output => by
      have bound := first.toNat_lt
      have written : writeAfter [] [first] =
          [first.toNat / 4, first.toNat % 4 * 16 + 0].map character ++ ['=', '='] := rfl
      have small : ∀ value ∈ [first.toNat / 4, first.toNat % 4 * 16 + 0], value < 64 := by
        simp only [List.forall_mem_cons, List.not_mem_nil, false_implies, implies_true, and_true]
        omega
      rw [written, List.foldl_append, foldl_character small rfl]
      simp only [List.foldl_cons, List.foldl_nil, addCharacter_equals, addValue,
        toUInt8_first first 0 (by decide)]
      rfl
  | [first, second], output => by
      have bound := first.toNat_lt
      have secondBound := second.toNat_lt
      have written : writeAfter [] [first, second] =
          [first.toNat / 4, first.toNat % 4 * 16 + second.toNat / 16,
            second.toNat % 16 * 4 + 0].map character ++ ['='] := rfl
      have small : ∀ value ∈ [first.toNat / 4, first.toNat % 4 * 16 + second.toNat / 16,
          second.toNat % 16 * 4 + 0], value < 64 := by
        simp only [List.forall_mem_cons, List.not_mem_nil, false_implies, implies_true, and_true]
        omega
      rw [written, List.foldl_append, foldl_character small rfl]
      simp only [List.foldl_cons, List.foldl_nil, addCharacter_equals, addValue,
        toUInt8_first first (second.toNat / 16) (by omega),
        toUInt8_second second 0 (by decide)]
      rfl
  | first :: second :: third :: rest, output => by
      have bound := first.toNat_lt
      have secondBound := second.toNat_lt
      have thirdBound := third.toNat_lt
      have small : ∀ value ∈ [first.toNat / 4, first.toNat % 4 * 16 + second.toNat / 16,
          second.toNat % 16 * 4 + third.toNat / 64, third.toNat % 64], value < 64 := by
        simp only [List.forall_mem_cons, List.not_mem_nil, false_implies, implies_true, and_true]
        omega
      have group : [first.toNat / 4, first.toNat % 4 * 16 + second.toNat / 16,
          second.toNat % 16 * 4 + third.toNat / 64, third.toNat % 64].foldl addValue { output } =
            { output := ((output.push first).push second).push third } := by
        simp only [List.foldl_cons, List.foldl_nil, addValue,
          toUInt8_first first (second.toNat / 16) (by omega),
          toUInt8_second second (third.toNat / 64) (by omega), toUInt8_third third]
      rw [writeAfter_three, List.foldl_append, foldl_character small rfl, group,
        finish_foldl_writeAfter rest]
      rfl

end Reading

theorem toList_foldl_push (units : List UInt8) (output : ByteArray) :
    (units.foldl ByteArray.push output).data.toList = output.data.toList ++ units := by
  induction units generalizing output with
  | nil => exact (List.append_nil _).symm
  | cons unit units ih =>
      rw [List.foldl_cons, ih, ByteArray.data_push, Array.toList_push, List.append_assoc,
        List.singleton_append]

theorem read?_write (bytes : ByteArray) : read? (write bytes) = some bytes := by
  have whole : bytes.data.toList.foldl ByteArray.push .empty = bytes :=
    ByteArray.ext (Array.toList_inj.1 (toList_foldl_push bytes.data.toList .empty))
  rw [read?_eq_foldl_characters, write, String.toList_ofList]
  exact (Reading.finish_foldl_writeAfter _ _).trans (congrArg some whole)

/-- The base64 text of bytes is read as the bytes. -/
theorem read?_textOf (bytes : ByteArray) : read? (textOf bytes) = some bytes := by
  rw [← write_eq_textOf, read?_write]

theorem length_writeAfter (done : List Char) (bytes : List UInt8) :
    (writeAfter done bytes).length = done.length + 4 * ((bytes.length + 2) / 3) := by
  fun_induction writeAfter done bytes with
  | case1 => simp
  | case2 => simp
  | case3 => simp
  | case4 done first second third rest ih =>
      rw [ih]
      simp only [List.length_cons]
      omega

/-- Three bytes take four characters, and what is left of fewer takes as many. -/
theorem length_textOf (bytes : ByteArray) : (textOf bytes).length = 4 * ((bytes.size + 2) / 3) := by
  rw [← write_eq_textOf, write, String.length_ofList, length_writeAfter, List.length_nil,
    Nat.zero_add]
  rfl

end WordStream.Input.Base64

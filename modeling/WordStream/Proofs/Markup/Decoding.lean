import Mathlib.Data.List.Basic
import WordStream.Markup.Encoding
import WordStream.Proofs.Text.Encoded

/-!
# Decoding

The decoder of an encoding takes bytes one after the other, so that it does not matter how they are cut. The
bytes of a text in UTF-8 give its characters again. An encoding with one byte for each character that has the
characters of ASCII gives those of a text that is written in UTF-8 only where that is ASCII.
-/

set_option autoImplicit false

namespace WordStream.Markup

open Text.Utf8Fault (continuations? maySecond isContinuation)

/-- Whether the characters of ASCII are written as ASCII has them. -/
def Encoding.ExtendsAscii (encoding : Encoding) : Prop :=
  ∀ code < 0x80, Decoder.step encoding [] (UInt8.ofNat code) = ([], [Char.ofNat code])

namespace Decoder

variable {encoding : Encoding}

/-! ## Bytes in parts -/

theorem takeAfter_cons {waiting later : List UInt8} {byte : UInt8} {characters : List Char}
    (taken : step encoding waiting byte = (later, characters)) (done : List Char)
    (bytes : List UInt8) :
    takeAfter encoding done waiting (byte :: bytes) =
      takeAfter encoding (characters.reverseAux done) later bytes := by
  rw [takeAfter, taken]

theorem takeAfter_eq (done : List Char) (waiting bytes : List UInt8) :
    takeAfter encoding done waiting bytes =
      (done.reverse ++ (takeAfter encoding [] waiting bytes).1,
        (takeAfter encoding [] waiting bytes).2) := by
  induction bytes generalizing done waiting with
  | nil => simp [takeAfter]
  | cons byte bytes ih =>
      rw [takeAfter_cons rfl, takeAfter_cons rfl, ih, ih (List.reverseAux _ [])]
      simp [List.reverseAux_eq]

theorem takeAfter_append (done : List Char) (waiting former latter : List UInt8) :
    takeAfter encoding done waiting (former ++ latter) =
      takeAfter encoding (takeAfter encoding done waiting former).1.reverse
        (takeAfter encoding done waiting former).2 latter := by
  induction former generalizing done waiting with
  | nil => simp [takeAfter]
  | cons byte former ih =>
      rw [List.cons_append, takeAfter, takeAfter]
      exact ih _ _

/-- Bytes that come in two parts give the characters of both. -/
theorem take_append (decoder : Decoder) (former latter : List UInt8) :
    decoder.take (former ++ latter) =
      ((decoder.take former).1 ++ ((decoder.take former).2.take latter).1,
        ((decoder.take former).2.take latter).2) := by
  simp only [take, takeAfter_append, takeAfter_eq (List.reverse _), List.reverse_reverse]

/-! ## UTF-8 -/

section Utf8

variable {first second third fourth : UInt8}

/-- The number of bytes that follow a first byte, told by the code of that. -/
theorem continuations?_eq (first : UInt8) :
    continuations? first =
      if first.toNat < 0x80 then some 0
      else if first.toNat < 0xC2 then none
      else if first.toNat < 0xE0 then some 1
      else if first.toNat < 0xF0 then some 2
      else if first.toNat < 0xF5 then some 3
      else none := rfl

theorem isContinuation_of {byte : UInt8} (low : 0x80 ≤ byte.toNat) (high : byte.toNat < 0xC0) :
    isContinuation byte = true := by
  rw [isContinuation, Bool.and_eq_true, decide_eq_true_iff, decide_eq_true_iff]
  exact ⟨low, high⟩

theorem maySecond_of (carries : isContinuation second = true)
    (notShort : first.toNat = 0xE0 → 0xA0 ≤ second.toNat)
    (notSurrogate : first.toNat = 0xED → second.toNat < 0xA0)
    (notShorter : first.toNat = 0xF0 → 0x90 ≤ second.toNat)
    (notBeyond : first.toNat = 0xF4 → second.toNat < 0x90) : maySecond first second = true := by
  have either : ∀ (code : UInt8) (bound : Prop) [Decidable bound],
      (first.toNat = code.toNat → bound) → (first != code || decide bound) = true := by
    intro code bound _ bounded
    rw [Bool.or_eq_true, bne_iff_ne, decide_eq_true_iff]
    exact Decidable.not_or_of_imp fun same => bounded (congrArg UInt8.toNat same)
  rw [maySecond, carries, either 0xE0 (0xA0 ≤ second) notShort,
    either 0xED (second < 0xA0) notSurrogate, either 0xF0 (0x90 ≤ second) notShorter,
    either 0xF4 (second < 0x90) notBeyond]
  rfl

theorem utf8Character_two :
    utf8Character [first, second] =
      Char.ofNat (0x40 * (first.toNat % 0x20) + second.toNat % 0x40) := rfl

theorem utf8Character_three :
    utf8Character [first, second, third] =
      Char.ofNat (0x40 * (0x40 * (first.toNat % 0x10) + second.toNat % 0x40) +
        third.toNat % 0x40) := by
  simp [utf8Character]

theorem utf8Character_four :
    utf8Character [first, second, third, fourth] =
      Char.ofNat (0x40 * (0x40 * (0x40 * (first.toNat % 0x08) + second.toNat % 0x40) +
        third.toNat % 0x40) + fourth.toNat % 0x40) := by
  simp [utf8Character]

theorem step_start {count : Nat} (carried : continuations? first = some (count + 1)) :
    step .utf8 [] first = ([first], []) := by
  simp only [step, utf8Step, utf8Start, carried]

theorem takeAfter_two (followed : continuations? first = some 1)
    (carries : maySecond first second = true) (done : List Char) (bytes : List UInt8) :
    takeAfter .utf8 done [] (first :: second :: bytes) =
      takeAfter .utf8 (utf8Character [first, second] :: done) [] bytes := by
  have last : step .utf8 [first] second = ([], [utf8Character [first, second]]) := by
    simp [step, utf8Step, carries, followed]
  rw [takeAfter_cons (step_start followed), takeAfter_cons last]
  rfl

theorem takeAfter_three (followed : continuations? first = some 2)
    (carries : maySecond first second = true) (carriesOn : isContinuation third = true)
    (done : List Char) (bytes : List UInt8) :
    takeAfter .utf8 done [] (first :: second :: third :: bytes) =
      takeAfter .utf8 (utf8Character [first, second, third] :: done) [] bytes := by
  have middle : step .utf8 [first] second = ([first, second], []) := by
    simp [step, utf8Step, carries, followed]
  have last : step .utf8 [first, second] third =
      ([], [utf8Character [first, second, third]]) := by
    simp [step, utf8Step, carriesOn, followed]
  rw [takeAfter_cons (step_start followed), takeAfter_cons middle, takeAfter_cons last]
  rfl

theorem takeAfter_four (followed : continuations? first = some 3)
    (carries : maySecond first second = true) (carriesOn : isContinuation third = true)
    (carriesOut : isContinuation fourth = true) (done : List Char) (bytes : List UInt8) :
    takeAfter .utf8 done [] (first :: second :: third :: fourth :: bytes) =
      takeAfter .utf8 (utf8Character [first, second, third, fourth] :: done) [] bytes := by
  have middle : step .utf8 [first] second = ([first, second], []) := by
    simp [step, utf8Step, carries, followed]
  have next : step .utf8 [first, second] third = ([first, second, third], []) := by
    simp [step, utf8Step, carriesOn, followed]
  have last : step .utf8 [first, second, third] fourth =
      ([], [utf8Character [first, second, third, fourth]]) := by
    simp [step, utf8Step, carriesOut, followed]
  rw [takeAfter_cons (step_start followed), takeAfter_cons middle, takeAfter_cons next,
    takeAfter_cons last]
  rfl

end Utf8

/-- The codes that characters have do not include those of surrogates. -/
theorem toNat_bounds (character : Char) :
    character.toNat < 0xD800 ∨ 0xDFFF < character.toNat ∧ character.toNat < 0x110000 :=
  character.valid

theorem toNat_ofNat {code : Nat} (small : code < 0x100) : (UInt8.ofNat code).toNat = code := by
  rw [UInt8.toNat_ofNat', Nat.mod_eq_of_lt small]

section Codes

variable {code : Nat} (done : List Char) (bytes : List UInt8)

theorem toNat_part (part : Nat) : (UInt8.ofNat (part % 64 + 128)).toNat = part % 64 + 128 :=
  toNat_ofNat (by omega)

theorem isContinuation_part (part : Nat) :
    isContinuation (UInt8.ofNat (part % 64 + 128)) = true :=
  isContinuation_of (by rw [toNat_part]; omega) (by rw [toNat_part]; omega)

theorem takeAfter_code_one (small : code ≤ 0x7F) :
    takeAfter .utf8 done [] (UInt8.ofNat code :: bytes) =
      takeAfter .utf8 (Char.ofNat code :: done) [] bytes := by
  have byte : (UInt8.ofNat code).toNat = code := toNat_ofNat (by omega)
  have followed : continuations? (UInt8.ofNat code) = some 0 := by
    rw [continuations?_eq, byte, if_pos (by omega)]
  have start : step .utf8 [] (UInt8.ofNat code) = ([], [Char.ofNat code]) := by
    simp only [step, utf8Step, utf8Start, followed, byte]
  rw [takeAfter_cons start]
  rfl

theorem takeAfter_code_two (above : 0x7F < code) (small : code ≤ 0x7FF) :
    takeAfter .utf8 done []
        (UInt8.ofNat (code / 64 % 32 + 192) :: UInt8.ofNat (code % 64 + 128) :: bytes) =
      takeAfter .utf8 (Char.ofNat code :: done) [] bytes := by
  have first : (UInt8.ofNat (code / 64 % 32 + 192)).toNat = code / 64 % 32 + 192 :=
    toNat_ofNat (by omega)
  have followed : continuations? (UInt8.ofNat (code / 64 % 32 + 192)) = some 1 := by
    rw [continuations?_eq, first, if_neg (by omega), if_neg (by omega), if_pos (by omega)]
  have carries : maySecond (UInt8.ofNat (code / 64 % 32 + 192))
      (UInt8.ofNat (code % 64 + 128)) = true := by
    refine maySecond_of (isContinuation_part code) ?_ ?_ ?_ ?_ <;> rw [first, toNat_part] <;> omega
  have whole : utf8Character
      [UInt8.ofNat (code / 64 % 32 + 192), UInt8.ofNat (code % 64 + 128)] = Char.ofNat code := by
    rw [utf8Character_two, first, toNat_part]
    exact congrArg Char.ofNat (by omega)
  rw [takeAfter_two followed carries, whole]

/-- A code of three bytes is not one of a surrogate. -/
theorem takeAfter_code_three (above : 0x7FF < code) (small : code ≤ 0xFFFF)
    (plain : code < 0xD800 ∨ 0xDFFF < code) :
    takeAfter .utf8 done []
        (UInt8.ofNat (code / 4096 % 16 + 224) :: UInt8.ofNat (code / 64 % 64 + 128) ::
          UInt8.ofNat (code % 64 + 128) :: bytes) =
      takeAfter .utf8 (Char.ofNat code :: done) [] bytes := by
  have first : (UInt8.ofNat (code / 4096 % 16 + 224)).toNat = code / 4096 % 16 + 224 :=
    toNat_ofNat (by omega)
  have followed : continuations? (UInt8.ofNat (code / 4096 % 16 + 224)) = some 2 := by
    rw [continuations?_eq, first, if_neg (by omega), if_neg (by omega), if_neg (by omega),
      if_pos (by omega)]
  have carries : maySecond (UInt8.ofNat (code / 4096 % 16 + 224))
      (UInt8.ofNat (code / 64 % 64 + 128)) = true := by
    refine maySecond_of (isContinuation_part _) ?_ ?_ ?_ ?_ <;> rw [first, toNat_part] <;> omega
  have whole : utf8Character
      [UInt8.ofNat (code / 4096 % 16 + 224), UInt8.ofNat (code / 64 % 64 + 128),
        UInt8.ofNat (code % 64 + 128)] = Char.ofNat code := by
    rw [utf8Character_three, first, toNat_part, toNat_part]
    exact congrArg Char.ofNat (by omega)
  rw [takeAfter_three followed carries (isContinuation_part code), whole]

theorem takeAfter_code_four (above : 0xFFFF < code) (small : code < 0x110000) :
    takeAfter .utf8 done []
        (UInt8.ofNat (code / 262144 % 8 + 240) :: UInt8.ofNat (code / 4096 % 64 + 128) ::
          UInt8.ofNat (code / 64 % 64 + 128) :: UInt8.ofNat (code % 64 + 128) :: bytes) =
      takeAfter .utf8 (Char.ofNat code :: done) [] bytes := by
  have first : (UInt8.ofNat (code / 262144 % 8 + 240)).toNat = code / 262144 % 8 + 240 :=
    toNat_ofNat (by omega)
  have followed : continuations? (UInt8.ofNat (code / 262144 % 8 + 240)) = some 3 := by
    rw [continuations?_eq, first, if_neg (by omega), if_neg (by omega), if_neg (by omega),
      if_neg (by omega), if_pos (by omega)]
  have carries : maySecond (UInt8.ofNat (code / 262144 % 8 + 240))
      (UInt8.ofNat (code / 4096 % 64 + 128)) = true := by
    refine maySecond_of (isContinuation_part _) ?_ ?_ ?_ ?_ <;> rw [first, toNat_part] <;> omega
  have whole : utf8Character
      [UInt8.ofNat (code / 262144 % 8 + 240), UInt8.ofNat (code / 4096 % 64 + 128),
        UInt8.ofNat (code / 64 % 64 + 128), UInt8.ofNat (code % 64 + 128)] =
          Char.ofNat code := by
    rw [utf8Character_four, first, toNat_part, toNat_part, toNat_part]
    exact congrArg Char.ofNat (by omega)
  rw [takeAfter_four followed carries (isContinuation_part _) (isContinuation_part _), whole]

end Codes

/-- The bytes of a character give it. -/
theorem takeAfter_utf8EncodeChar (done : List Char) (character : Char) (bytes : List UInt8) :
    takeAfter .utf8 done [] (String.utf8EncodeChar character ++ bytes) =
      takeAfter .utf8 (character :: done) [] bytes := by
  have bounds := toNat_bounds character
  have coded : Char.ofNat character.toNat = character := Char.ofNat_toNat character
  rw [String.utf8EncodeChar, show character.val.toNat = character.toNat from rfl]
  generalize character.toNat = code at bounds coded ⊢
  subst coded
  split
  · next one => exact takeAfter_code_one done bytes one
  · split
    · next above two => exact takeAfter_code_two done bytes (Nat.lt_of_not_le above) two
    · split
      · next above three =>
          exact takeAfter_code_three done bytes (Nat.lt_of_not_le above) three (bounds.imp_right And.left)
      · next above =>
          have beyond : 0xFFFF < code := Nat.lt_of_not_le above
          exact takeAfter_code_four done bytes beyond (by omega)

/-- The bytes of a text give its characters, and no byte is left. -/
theorem take_flatMap_utf8EncodeChar (characters : List Char) :
    take {} (characters.flatMap String.utf8EncodeChar) = (characters, {}) := by
  have onward : ∀ (characters done : List Char),
      takeAfter .utf8 done [] (characters.flatMap String.utf8EncodeChar) =
        (done.reverse ++ characters, []) := by
    intro characters
    induction characters with
    | nil => exact fun done => Prod.ext (List.append_nil _).symm rfl
    | cons character characters ih =>
        intro done
        rw [List.flatMap_cons, takeAfter_utf8EncodeChar, ih, List.reverse_cons, List.append_assoc,
          List.singleton_append]
  rw [take, onward]
  rfl

/-- Whether bytes that wait may be the front of a character: the first one tells that more than they are belong
to it. -/
def IsFront (waiting : List UInt8) : Prop :=
  ∀ first others, waiting = first :: others →
    ∃ count, continuations? first = some count ∧ others.length < count

theorem isFront_nil : IsFront [] :=
  fun _ _ same => nomatch same

theorem IsFront.length_le {waiting : List UInt8} (front : IsFront waiting) : waiting.length ≤ 3 := by
  cases waiting with
  | nil => exact Nat.zero_le 3
  | cons first others =>
      obtain ⟨count, carried, fewer⟩ := front first others rfl
      have most : count ≤ 3 := by
        rw [continuations?_eq] at carried
        split at carried
        · cases carried
          decide
        repeat' split at carried
        all_goals cases carried <;> decide
      rw [List.length_cons]
      omega

/-- What a byte of UTF-8 leaves waiting is the front of a character. A character takes four bytes at most. -/
theorem utf8Start_spec (byte : UInt8) {waiting : List UInt8} {characters : List Char}
    (started : utf8Start byte = (waiting, characters)) :
    IsFront waiting ∧ characters.length + waiting.length = 1 := by
  unfold utf8Start at started
  split at started
  · cases started
    exact ⟨isFront_nil, rfl⟩
  · cases started
    exact ⟨isFront_nil, rfl⟩
  · next count others carried =>
      cases started
      refine ⟨?_, rfl⟩
      rintro _ _ ⟨⟩
      exact ⟨count, carried, Nat.pos_of_ne_zero others⟩

theorem utf8Step_spec {waiting later : List UInt8} {byte : UInt8} {characters : List Char}
    (front : IsFront waiting) (taken : utf8Step waiting byte = (later, characters)) :
    IsFront later ∧ characters.length + later.length ≤ waiting.length + 1 ∧
      waiting.length + 1 ≤ 4 * characters.length + later.length := by
  have few := front.length_le
  unfold utf8Step at taken
  cases waiting with
  | nil =>
      obtain ⟨started, one⟩ := utf8Start_spec byte taken
      exact ⟨started, Nat.le_of_eq one, by rw [List.length_nil]; omega⟩
  | cons first others =>
      obtain ⟨count, carried, fewer⟩ := front first others rfl
      rw [List.length_cons] at few ⊢
      dsimp only at taken
      generalize (if others.isEmpty then maySecond first byte else isContinuation byte) = carries
        at taken
      cases carries with
      | true =>
          rw [if_pos rfl] at taken
          split at taken
          · cases taken
            exact ⟨isFront_nil, by simp, by simp only [List.length_singleton, List.length_nil]; omega⟩
          · next unfinished =>
              cases taken
              refine ⟨?_, by simp, by simp⟩
              rintro _ _ ⟨⟩
              have more : count ≠ others.length + 1 :=
                fun same => unfinished (by rw [carried, same])
              refine ⟨count, carried, ?_⟩
              rw [List.append_eq, List.length_append, List.length_singleton]
              omega
      | false =>
          rcases started : utf8Start byte with ⟨between, given⟩
          obtain ⟨frontBetween, one⟩ := utf8Start_spec byte started
          have same : (between, undecodable :: given) = (later, characters) := by
            rw [← taken, if_neg (by decide), started]
          cases same
          rw [List.length_cons]
          exact ⟨frontBetween, by omega, by omega⟩

/-- Bytes give as many characters as they are at most, and not less than a fourth of that. -/
theorem takeAfter_utf8_spec (done : List Char) {waiting : List UInt8} (front : IsFront waiting)
    (bytes : List UInt8) {characters : List Char} {later : List UInt8}
    (taken : takeAfter .utf8 done waiting bytes = (characters, later)) :
    IsFront later ∧
      characters.length + later.length ≤ done.length + waiting.length + bytes.length ∧
      4 * done.length + waiting.length + bytes.length ≤ 4 * characters.length + later.length := by
  induction bytes generalizing done waiting with
  | nil =>
      cases taken
      refine ⟨front, ?_, ?_⟩ <;> simp
  | cons byte bytes ih =>
      rcases stepped : step .utf8 waiting byte with ⟨between, given⟩
      obtain ⟨frontBetween, most, least⟩ := utf8Step_spec front stepped
      rw [takeAfter_cons stepped] at taken
      obtain ⟨frontLater, mostLater, leastLater⟩ := ih (given.reverseAux done) frontBetween taken
      rw [List.reverseAux_eq, List.length_append, List.length_reverse] at mostLater leastLater
      rw [List.length_cons]
      exact ⟨frontLater, by omega, by omega⟩

/-! ## All bytes of a text -/

/-- The characters of bytes with which a text ends, unless they end within a character that must be whole. -/
def whole? (decoder : Decoder) (bytes : List UInt8) : Option (List Char) :=
  (decoder.take bytes).2.finish?.map ((decoder.take bytes).1 ++ ·)

theorem whole?_append (decoder : Decoder) (former latter : List UInt8) :
    decoder.whole? (former ++ latter) =
      ((decoder.take former).2.whole? latter).map ((decoder.take former).1 ++ ·) := by
  rw [whole?, whole?, take_append, Option.map_map]
  refine congrArg (Option.map · _) (funext fun rest => ?_)
  rw [Function.comp_apply, List.append_assoc]

theorem whole?_nil (decoder : Decoder) : decoder.whole? [] = decoder.finish? := by
  have none : decoder.take [] = ([], decoder) := rfl
  rw [whole?, none]
  exact Option.map_id'

theorem whole?_flatMap_utf8EncodeChar (characters : List Char) :
    whole? {} (characters.flatMap String.utf8EncodeChar) = some characters := by
  rw [whole?, take_flatMap_utf8EncodeChar]
  exact congrArg some (List.append_nil characters)

/-- What the end of the bytes adds is no line feed. -/
theorem head?_of_whole? {decoder : Decoder} {bytes : List UInt8} {text : List Char}
    (come : decoder.whole? bytes = some text) (begins : text.head? = some '\n') :
    (decoder.take bytes).1.head? = some '\n' := by
  obtain ⟨rest, ended, rfl⟩ := Option.map_eq_some_iff.1 come
  cases front : (decoder.take bytes).1 with
  | nil =>
      rw [front] at begins
      have plain : rest.head? ≠ some '\n' := by
        unfold finish? at ended
        split at ended
        · cases ended
          split <;> decide
        · split at ended
          · cases ended
            decide
          · cases ended
      exact absurd begins plain
  | cons first others =>
      rw [front] at begins
      exact begins

/-- Where nothing but a carriage return is left, no document type ends with it. -/
theorem not_mem_of_whole?_return {decoder : Decoder} (utf8 : decoder.encoding = .utf8) {bytes : List UInt8}
    (few : bytes = [] ∨ bytes = [0x0D]) {text : List Char} (come : decoder.whole? bytes = some text) :
    '>' ∉ text ∧ '[' ∉ text := by
  obtain ⟨encoding, waiting⟩ := decoder
  subst utf8
  suffices ∀ character ∈ text, character = undecodable ∨ character = '\r' by
    constructor <;> exact fun member => absurd (this _ member) (by decide)
  have finish : ∀ {waiting rest}, finish? { encoding := .utf8, waiting } = some rest →
      ∀ character ∈ rest, character = undecodable ∨ character = '\r' := by
    intro waiting rest finished
    cases finished
    cases waiting with
    | nil => exact List.forall_mem_nil _
    | cons first others => exact List.forall_mem_singleton.2 (.inl rfl)
  have step : ∃ characters, step .utf8 waiting 0x0D = ([], characters) ∧
      ∀ character ∈ characters, character = undecodable ∨ character = '\r' := by
    cases waiting with
    | nil => exact ⟨['\r'], rfl, List.forall_mem_singleton.2 (.inr rfl)⟩
    | cons first others =>
        have carries : (if others.isEmpty then maySecond first 0x0D else isContinuation 0x0D) = false := by
          split <;> rfl
        refine ⟨[undecodable, '\r'], ?_, List.forall_mem_cons.2 ⟨.inl rfl, List.forall_mem_singleton.2 (.inr rfl)⟩⟩
        rw [Decoder.step, utf8Step, carries]
        rfl
  rcases few with rfl | rfl
  · exact finish ((whole?_nil _).symm.trans come)
  · obtain ⟨characters, stepped, plain⟩ := step
    obtain ⟨rest, finished, rfl⟩ := Option.map_eq_some_iff.1 come
    rw [take, takeAfter, stepped] at finished ⊢
    refine List.forall_mem_append.2 ⟨?_, finish finished⟩
    simpa [takeAfter, List.reverseAux_eq] using plain

/-! ## Line ends of two characters -/

/-- Whether bytes are cut between the two characters of a line end. -/
def Breaks (start : Decoder) (front rest : List UInt8) : Prop :=
  (start.take front).1.getLast? = some '\r' ∧ ((start.take front).2.take rest).1.head? = some '\n'

/-- Whether bytes can only be cut within a line end behind the byte of a carriage return, before another byte. -/
def BreaksPlainly (start : Decoder) (bytes : List UInt8) : Prop :=
  ∀ front rest, bytes = front ++ rest → start.Breaks front rest →
    front.getLast? = some 0x0D ∧ rest.head? ≠ some 0x0D

theorem take_utf8EncodeChar_append (character : Char) (bytes : List UInt8) :
    take {} (String.utf8EncodeChar character ++ bytes) =
      (character :: (take {} bytes).1, (take {} bytes).2) := by
  have single := take_flatMap_utf8EncodeChar [character]
  rw [List.flatMap_singleton] at single
  rw [take_append, single]
  rfl

/-- A part of the bytes of a character gives nothing. -/
theorem take_part {character : Char} {front tail : List UInt8}
    (split : String.utf8EncodeChar character = front ++ tail) (more : tail ≠ []) :
    (take {} front).1 = [] := by
  have whole : take {} (front ++ tail) = ([character], {}) := by
    rw [← split, ← List.append_nil (String.utf8EncodeChar character)]
    exact take_utf8EncodeChar_append character []
  rcases taken : takeAfter .utf8 [] [] front with ⟨characters, waiting⟩
  obtain ⟨isFront, -, -⟩ := takeAfter_utf8_spec [] isFront_nil front taken
  rcases takenTail : takeAfter .utf8 [] waiting tail with ⟨others, last⟩
  obtain ⟨-, -, least⟩ := takeAfter_utf8_spec [] isFront tail takenTail
  have frontTaken : take {} front = (characters, { waiting }) := by rw [take, taken]
  have tailTaken : take { waiting } tail = (others, { waiting := last }) := by rw [take, takenTail]
  rw [take_append, frontTaken, tailTaken] at whole
  simp only [Prod.mk.injEq, Decoder.mk.injEq, true_and] at whole
  obtain ⟨same, rfl⟩ := whole
  rw [frontTaken]
  rcases List.append_eq_singleton_iff.1 same with ⟨none, -⟩ | ⟨-, none⟩
  · exact none
  · subst none
    simp only [List.length_nil, Nat.mul_zero, Nat.zero_add] at least
    exact absurd (List.length_eq_zero_iff.1 (by omega)) more

/-- The bytes of a text are cut behind its first character or within the bytes of that character. -/
theorem cut_utf8EncodeChar {character : Char} {bytes front rest : List UInt8}
    (split : String.utf8EncodeChar character ++ bytes = front ++ rest) :
    (∃ more, front = String.utf8EncodeChar character ++ more ∧ bytes = more ++ rest) ∨
      ∃ tail, String.utf8EncodeChar character = front ++ tail ∧ tail ≠ [] := by
  rcases List.append_eq_append_iff.1 split with behind | ⟨tail, part, same⟩
  · exact .inl behind
  · by_cases none : tail = []
    · subst none
      exact .inl ⟨[], by rw [part, List.append_nil, List.append_nil], same.symm⟩
    · exact .inr ⟨tail, part, none⟩

/-- Bytes that give nothing before a line feed are no bytes. -/
theorem eq_nil_of_take_lineFeed {characters : List Char} {front rest : List UInt8}
    (split : characters.flatMap String.utf8EncodeChar = front ++ rest) (none : (take {} front).1 = [])
    (begins : ((take {} front).2.take rest).1.head? = some '\n') :
    front = [] ∧ rest.head? = some 0x0A := by
  have whole := take_flatMap_utf8EncodeChar characters
  rw [split, take_append, none, List.nil_append, Prod.mk.injEq] at whole
  rw [whole.1] at begins
  obtain ⟨others, rfl⟩ := List.head?_eq_some_iff.1 begins
  have fed : String.utf8EncodeChar '\n' ++ others.flatMap String.utf8EncodeChar = front ++ rest := split
  cases front with
  | nil => exact ⟨rfl, (congrArg List.head? fed).symm⟩
  | cons byte more =>
      cases (List.cons.inj fed).1
      have given := congrArg Prod.fst (take_utf8EncodeChar_append '\n' more)
      cases none.symm.trans given

/-- The bytes of a text in UTF-8 are only cut within a line end where its two bytes are. -/
theorem breaksPlainly_utf8 (characters : List Char) :
    BreaksPlainly {} (characters.flatMap String.utf8EncodeChar) := by
  intro front rest split breaks
  suffices front.getLast? = some 0x0D ∧ rest.head? = some 0x0A by
    exact ⟨this.1, this.2 ▸ by decide⟩
  induction characters generalizing front with
  | nil =>
      obtain ⟨rfl, rfl⟩ := List.append_eq_nil_iff.1 split.symm
      cases breaks.1
  | cons character characters ih =>
      rw [List.flatMap_cons] at split
      obtain ⟨more, rfl, same⟩ | ⟨tail, part, filled⟩ := cut_utf8EncodeChar split
      · rw [Breaks, take_utf8EncodeChar_append] at breaks
        obtain ⟨ended, begins⟩ := breaks
        by_cases none : (take {} more).1 = []
        · obtain ⟨rfl, fed⟩ := eq_nil_of_take_lineFeed same none begins
          rw [none, List.getLast?_singleton, Option.some_inj] at ended
          subst ended
          exact ⟨rfl, fed⟩
        · have filled : more ≠ [] := fun empty => none (by rw [empty]; rfl)
          rw [← List.singleton_append, List.getLast?_append_of_ne_nil _ none] at ended
          rw [List.getLast?_append_of_ne_nil _ filled]
          exact ih more same ⟨ended, begins⟩
      · rw [Breaks, take_part part filled] at breaks
        cases breaks.1

/-! ## One byte for each character -/

section Table

variable {read : UInt8 → Char}

theorem take_table (bytes : List UInt8) :
    take { encoding := .table read } bytes = (bytes.map read, { encoding := .table read }) := by
  have onward : ∀ (bytes : List UInt8) (done : List Char),
      takeAfter (.table read) done [] bytes = (done.reverse ++ bytes.map read, []) := by
    intro bytes
    induction bytes with
    | nil => exact fun done => Prod.ext (List.append_nil _).symm rfl
    | cons byte bytes ih =>
        intro done
        have single : step (.table read) [] byte = ([], [read byte]) := rfl
        rw [takeAfter_cons single, ih]
        simp [List.reverseAux_eq]
  rw [take, onward]
  rfl

theorem whole?_table (bytes : List UInt8) :
    whole? { encoding := .table read } bytes = some (bytes.map read) := by
  rw [whole?, take_table]
  exact congrArg some (List.append_nil _)

theorem breaksPlainly_table (returns : ∀ byte, read byte = '\r' → byte = 0x0D)
    (bytes : List UInt8) : BreaksPlainly { encoding := .table read } bytes := by
  rintro front rest - ⟨ended, begins⟩
  rw [take_table] at ended begins
  rw [take_table] at begins
  dsimp only at ended begins
  rw [List.getLast?_map, Option.map_eq_some_iff] at ended
  rw [List.head?_map, Option.map_eq_some_iff] at begins
  obtain ⟨byte, ended, isReturn⟩ := ended
  obtain ⟨other, begins, isFeed⟩ := begins
  obtain rfl := returns byte isReturn
  refine ⟨ended, fun same => ?_⟩
  rw [begins] at same
  cases same
  rw [isReturn] at isFeed
  cases isFeed

/-- A text in UTF-8 is read as itself only if it is of ASCII. -/
theorem lt_of_map_flatMap_utf8EncodeChar_eq {characters : List Char}
    (same : (characters.flatMap String.utf8EncodeChar).map read = characters) :
    ∀ character ∈ characters, character.toNat < 0x80 := by
  have lengths := congrArg List.length same
  rw [List.length_map] at lengths
  exact Text.lt_of_length_flatMap_le (Nat.le_of_eq lengths)

end Table

/-! ## Encodings that have the characters of ASCII -/

theorem take_of_ascii (extended : encoding.ExtendsAscii) {characters : List Char}
    (ascii : ∀ character ∈ characters, character.toNat < 0x80) :
    take { encoding } (characters.flatMap String.utf8EncodeChar) = (characters, { encoding }) := by
  have onward : ∀ (characters done : List Char), (∀ character ∈ characters, character.toNat < 0x80) →
      takeAfter encoding done [] (characters.map fun character => UInt8.ofNat character.toNat) =
        (done.reverse ++ characters, []) := by
    intro characters
    induction characters with
    | nil => exact fun done _ => Prod.ext (List.append_nil _).symm rfl
    | cons first others ih =>
        intro done plain
        rw [List.forall_mem_cons] at plain
        rw [List.map_cons, takeAfter_cons (extended _ plain.1), ih _ plain.2, Char.ofNat_toNat]
        simp [List.reverseAux_eq]
  rw [Text.flatMap_utf8EncodeChar_of_lt ascii, take, onward characters [] ascii]
  rfl

/-- A text of ASCII is read as itself. -/
theorem eq_of_whole?_ascii (extended : encoding.ExtendsAscii) {characters text : List Char}
    (ascii : ∀ character ∈ characters, character.toNat < 0x80)
    (come : whole? { encoding } (characters.flatMap String.utf8EncodeChar) = some text) : text = characters := by
  obtain ⟨rest, finished, rfl⟩ := Option.map_eq_some_iff.1 come
  rw [take_of_ascii extended ascii] at finished ⊢
  have none : rest = [] := by
    unfold finish? at finished
    split at finished
    · cases finished
      rfl
    · split at finished
      · cases finished
        rfl
      · cases finished
  rw [none, List.append_nil]

end Decoder

end WordStream.Markup

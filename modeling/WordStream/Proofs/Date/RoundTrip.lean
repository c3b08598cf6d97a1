import WordStream.Proofs.Date.Fields
import WordStream.Proofs.Text.Integer

/-!
# Reading time stamps back

A time stamp is read back from its full form, and without its offset or with `Z` in its place where it has
none, whatever blank characters stand around the text.
-/

set_option autoImplicit false

namespace WordStream.Date

variable {stamp : Stamp} {marks characters : List Char}

/-! ## Blank characters -/

/-- Blank characters around an edit date do not count. -/
theorem readEditDate?_of_blank {before after : String}
    (blankBefore : ∀ character ∈ before.toList, Text.isBlank character = true)
    (kept : ∀ character ∈ characters, Text.isBlank character = false)
    (blankAfter : ∀ character ∈ after.toList, Text.isBlank character = true) :
    readEditDate? (before ++ String.ofList characters ++ after) =
      Stamp.ofText? (expandZulu (String.ofList characters)) := by
  rw [readEditDate?, Text.trim, String.toList_append, String.toList_append, List.append_assoc,
    String.toList_ofList, Text.trimWhere_append blankBefore kept blankAfter]

/-! ## Characters of time stamps -/

/-- A check that digits and some marks pass is passed by all that is made of them. -/
theorem MadeOf.all (kind : MadeOf marks characters) (check : Char → Bool)
    (digits : ∀ character : Char, character.isDigit = true → check character = true)
    (others : marks.all check = true) : ∀ character ∈ characters, check character = true := by
  intro character member
  rcases kind character member with digit | mark
  · exact digits character digit
  · exact List.all_eq_true.1 others character mark

/-- The characters of time stamps besides digits. -/
def stampMarks : List Char := ['-', ':', '.', '+', 'T']

theorem madeOf_writeLocal (stamp : Stamp) : MadeOf stampMarks stamp.writeLocal := by
  simp [Stamp.writeLocal, stampMarks]

theorem madeOf_writeOffset (offset : Offset) : MadeOf stampMarks offset.write := by
  have sign : offset.sign ∈ stampMarks := by
    rcases offset.sign_eq_plus_or_minus with plus | minus
    · rw [plus]
      decide
    · rw [minus]
      decide
  rw [Offset.write_eq_cons]
  simp only [Offset.writeSize, madeOf_cons, madeOf_append, madeOf_writeDigits, sign, or_true, true_and]
  constructor
  · decide
  · split <;> simp [writeSeconds, stampMarks]

theorem isBlank_of_madeOf (kind : MadeOf stampMarks characters) :
    ∀ character ∈ characters, Text.isBlank character = false := by
  intro character member
  have digits (digit : Char) (isDigit : digit.isDigit = true) : (!Text.isBlank digit) = true := by
    rw [Text.isBlank_of_isDigit isDigit]
    rfl
  have kept := kind.all (!Text.isBlank ·) digits (by decide) character member
  rwa [Bool.not_eq_true'] at kept

theorem toNat_lt_of_madeOf (kind : MadeOf stampMarks characters) :
    ∀ character ∈ characters, character.toNat < 128 := by
  intro character member
  have digits (digit : Char) (isDigit : digit.isDigit = true) : decide (digit.toNat < 128) = true := by
    obtain ⟨-, high⟩ : 48 ≤ digit.toNat ∧ digit.toNat ≤ 57 := Char.isDigit_iff_toNat.1 isDigit
    exact decide_eq_true (by omega)
  exact of_decide_eq_true (kind.all (fun other => other.toNat < 128) digits (by decide) character member)

/-! ## Final marks -/

theorem expandZulu_append_mark {mark : Char} (zulu : mark = 'Z' ∨ mark = 'z') :
    expandZulu (String.ofList (characters ++ [mark])) =
      String.ofList (characters ++ Offset.utc.write) := by
  rcases zulu with rfl | rfl <;> simp [expandZulu] <;> rfl

theorem expandZulu_of_madeOf (kind : MadeOf stampMarks characters) :
    expandZulu (String.ofList characters) = String.ofList characters := by
  have other {mark : Char} (zulu : mark = 'Z' ∨ mark = 'z') : mark ∉ characters := by
    intro member
    have kinds := kind mark member
    rcases zulu with rfl | rfl
    · revert kinds
      decide
    · revert kinds
      decide
  unfold expandZulu
  rw [String.toList_ofList]
  split
  · next rest backwards =>
      exact absurd (List.mem_reverse.1 (backwards ▸ List.mem_cons_self)) (other (.inl rfl))
  · next rest backwards =>
      exact absurd (List.mem_reverse.1 (backwards ▸ List.mem_cons_self)) (other (.inr rfl))
  · rfl

/-! ## Whole texts -/

theorem Stamp.writeLocal_eq (stamp : Stamp) :
    stamp.writeLocal = stamp.day.write ++ 'T' :: stamp.clock.write := by
  simp [writeLocal, Day.write, Clock.write, writeClock, writeSeconds]

theorem Stamp.ofText?_of_readTime? {day : Day} {time : List Char} {clock : Clock} {offset : Offset}
    (kind : MadeOf stampMarks (day.write ++ 'T' :: time))
    (read : readTime? (asciiBytes time) = some (clock, offset)) :
    ofText? (String.ofList (day.write ++ 'T' :: time)) = some ⟨day, clock, offset⟩ := by
  have enough : 7 ≤ (String.ofList (day.write ++ 'T' :: time)).length := by
    simp [Day.write]
    omega
  have allowed : guard (7 ≤ (String.ofList (day.write ++ 'T' :: time)).length) = some () :=
    if_pos enough
  have length : (asciiBytes day.write).length = 10 := by
    simp [Day.write]
  have left : (asciiBytes day.write ++ ascii 'T' :: asciiBytes time).drop 10 =
      ascii 'T' :: asciiBytes time := by
    rw [← length, List.drop_left]
  have size : characterSize (ascii 'T') = 1 := by decide
  have after : (asciiBytes day.write ++ ascii 'T' :: asciiBytes time).drop (10 + 1) =
      asciiBytes time := by
    rw [← List.drop_drop, left]
    rfl
  unfold ofText?
  rw [toUTF8_ofList (toNat_lt_of_madeOf kind), asciiBytes_append, asciiBytes_cons]
  simp only [allowed, dayLength?_write, readDay?_write, left, after, size, read, bind, Option.bind]
  rfl

theorem Stamp.ofText?_full (told : stamp.offset.IsTold) : ofText? stamp.full = some stamp := by
  have kind : MadeOf stampMarks (stamp.writeLocal ++ stamp.offset.write) :=
    madeOf_append.2 ⟨madeOf_writeLocal stamp, madeOf_writeOffset stamp.offset⟩
  unfold full
  rw [writeLocal_eq, List.append_assoc, List.cons_append] at kind ⊢
  exact ofText?_of_readTime? kind (readTime?_write_offset stamp.clock told)

theorem Stamp.ofText?_writeLocal (stamp : Stamp) :
    ofText? (String.ofList stamp.writeLocal) = some { stamp with offset := Offset.utc } := by
  have kind := madeOf_writeLocal stamp
  rw [writeLocal_eq] at kind ⊢
  exact ofText?_of_readTime? kind (readTime?_write stamp.clock)

/-- A time stamp whose offset is a whole number of seconds is read back from its full form, whatever blank
characters stand around it. If it has no offset, it is also read back with `Z` or `z` in place of the offset,
or nothing. -/
theorem readEditDate?_written {before after : String}
    (whole : stamp.offset.microseconds % 1000000 = 0)
    (blankBefore : ∀ character ∈ before.toList, Text.isBlank character = true)
    (blankAfter : ∀ character ∈ after.toList, Text.isBlank character = true) :
    readEditDate? (before ++ stamp.full ++ after) = some stamp ∧
      (stamp.offset = Offset.utc → ∀ ending ∈ ["Z", "z", ""],
        readEditDate? (before ++ (String.ofList stamp.writeLocal ++ ending) ++ after) = some stamp) := by
  have localKind := madeOf_writeLocal stamp
  have fullKind : MadeOf stampMarks (stamp.writeLocal ++ stamp.offset.write) :=
    madeOf_append.2 ⟨localKind, madeOf_writeOffset stamp.offset⟩
  have read := Stamp.ofText?_full (Offset.isTold_of_mod_eq_zero whole)
  constructor
  · rw [Stamp.full, readEditDate?_of_blank blankBefore (isBlank_of_madeOf fullKind) blankAfter,
      expandZulu_of_madeOf fullKind]
    exact read
  · intro none ending member
    have marked : ∀ mark, mark = 'Z' ∨ mark = 'z' →
        readEditDate? (before ++ (String.ofList stamp.writeLocal ++ String.ofList [mark]) ++ after) =
          some stamp := by
      intro mark zulu
      have mark_kept : Text.isBlank mark = false := by
        rcases zulu with rfl | rfl <;> decide
      have kept : ∀ character ∈ stamp.writeLocal ++ [mark], Text.isBlank character = false :=
        List.forall_mem_append.2
          ⟨isBlank_of_madeOf localKind, List.forall_mem_singleton.2 mark_kept⟩
      rw [← String.ofList_append, readEditDate?_of_blank blankBefore kept blankAfter,
        expandZulu_append_mark zulu, ← none]
      exact read
    simp only [List.mem_cons, List.not_mem_nil, or_false] at member
    rcases member with rfl | rfl | rfl
    · exact marked 'Z' (.inl rfl)
    · exact marked 'z' (.inr rfl)
    · rw [String.append_empty, readEditDate?_of_blank blankBefore (isBlank_of_madeOf localKind) blankAfter,
        expandZulu_of_madeOf localKind, Stamp.ofText?_writeLocal, ← none]

/-- The last microsecond of a leap day, a second behind universal time. -/
def leapDayEnd : Stamp where
  day := ⟨2024, 2, 29, by decide⟩
  clock := ⟨23, 59, 59, 999999, by decide, by decide, by decide, by decide⟩
  offset := ⟨-1000000, by decide⟩

def firstMidnight : Stamp where
  day := ⟨1, 1, 1, by decide⟩
  clock := ⟨0, 0, 0, 0, by decide, by decide, by decide, by decide⟩
  offset := Offset.utc

theorem readEditDate?_leapDayEnd :
    readEditDate? "\t2024-02-29T23:59:59.999999-00:00:01\u2028 " = some leapDayEnd ∧
      readEditDate? "0001-01-01T00:00:00z\x1f" = some firstMidnight := by
  have around : "\t".toList.all Text.isBlank = true ∧ "\u2028 ".toList.all Text.isBlank = true ∧
      "\x1f".toList.all Text.isBlank = true := by
    decide
  constructor
  · have text : "\t2024-02-29T23:59:59.999999-00:00:01\u2028 " =
        "\t" ++ leapDayEnd.full ++ "\u2028 " := by
      decide +kernel
    rw [text]
    exact (readEditDate?_written (by decide) (List.all_eq_true.1 around.1)
      (List.all_eq_true.1 around.2.1)).1
  · have text : "0001-01-01T00:00:00z\x1f" =
        "" ++ (String.ofList firstMidnight.writeLocal ++ "z") ++ "\x1f" := by
      decide +kernel
    rw [text]
    exact (readEditDate?_written (by decide) (List.forall_mem_nil _)
      (List.all_eq_true.1 around.2.2)).2 rfl "z" (by decide)

/-- An offset of less than a second is read as none. -/
example : readEditDate? "2024-02-29T00:00:00+00:00:00.500000" =
    some ⟨⟨2024, 2, 29, by decide⟩, firstMidnight.clock, Offset.utc⟩ := by
  decide +kernel

end WordStream.Date

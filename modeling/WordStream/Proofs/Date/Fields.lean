import Mathlib.Data.Option.Basic
import WordStream.Proofs.Date.Digits

/-!
# Fields of time stamps

Day, time of day and offset are read back from the bytes of their written forms, after which other bytes may
come. A clock reading goes from field to field: a colon leads to the next field and a point to the fraction.
What comes after the last field tells only whether anything is left over.
-/

set_option autoImplicit false

namespace WordStream.Date

variable {number microsecond limit fields : Nat} {separated? : Option Bool} {rest : List UInt8}

/-! ## Fields -/

@[simp]
theorem byteAt_zero_nil : byteAt [] 0 = 0 := rfl

@[simp]
theorem byteAt_zero_cons (byte : UInt8) : byteAt (byte :: rest) 0 = byte := rfl

theorem readFraction?_writeDigits (small : microsecond < 1000000)
    (ends : rest.dropWhile isDigit = rest) :
    readFraction? 6 (asciiBytes (writeDigits 6 microsecond) ++ rest) =
      some (microsecond, byteAt rest 0 != 0) := by
  simp [readFraction?, readNumber?_of_lt (show microsecond < 10 ^ 6 from small), ends, Nat.repeat]

/-! ## Clock readings -/

theorem readClock?_colon (small : number < 100) (long : 3 < limit) (colons : separated?.getD true = true) :
    readClock? (fields + 1) separated? limit
        (asciiBytes (writeDigits 2 number) ++ ascii ':' :: rest) =
      (readClock? fields (some true) (limit - 3) rest).map fun later =>
        { later with fields := number :: later.fields } := by
  rw [readClock?, readNumber?_of_lt (by simpa using small)]
  simp [colons, Nat.not_le.2 long, Option.map_eq_bind]

theorem readClock?_last (small : number < 100) :
    readClock? (fields + 1) separated? 2 (asciiBytes (writeDigits 2 number) ++ rest) =
      some { fields := [number], leftover := byteAt rest 0 != 0 } := by
  rw [readClock?, readNumber?_of_lt (by simpa using small)]
  rfl

theorem readClock?_fraction (small : number < 100) (part : microsecond < 1000000)
    (ends : rest.dropWhile isDigit = rest) :
    readClock? (fields + 1) separated? 9
        (asciiBytes (writeDigits 2 number) ++
          ascii '.' :: (asciiBytes (writeDigits 6 microsecond) ++ rest)) =
      some { fields := [number], microsecond, leftover := byteAt rest 0 != 0 } := by
  have dot : ascii '.' ≠ ascii ':' := by decide
  rw [readClock?, readNumber?_of_lt (by simpa using small)]
  simp [dot, readFraction?_writeDigits part ends]

theorem readClock?_minute {hour minute : Nat} (hours : hour < 100) (minutes : minute < 100)
    (rest : List UInt8) :
    readClock? 3 none 5 (asciiBytes (writeDigits 2 hour ++ ':' :: writeDigits 2 minute) ++ rest) =
      some { fields := [hour, minute], leftover := byteAt rest 0 != 0 } := by
  simp only [asciiBytes_append, asciiBytes_cons, List.append_assoc, List.cons_append]
  rw [readClock?_colon hours (by decide) rfl, readClock?_last minutes]
  rfl

def writeSeconds (second microsecond : Nat) : List Char :=
  writeDigits 2 second ++ writeFraction microsecond

theorem readClock?_writeSeconds (small : number < 100) (part : microsecond < 1000000)
    (ends : rest.dropWhile isDigit = rest) :
    readClock? (fields + 1) separated? (writeSeconds number microsecond).length
        (asciiBytes (writeSeconds number microsecond) ++ rest) =
      some { fields := [number], microsecond, leftover := byteAt rest 0 != 0 } := by
  unfold writeSeconds writeFraction
  split
  · next none =>
      rw [List.append_nil, length_writeDigits, readClock?_last small, none]
  · next some =>
      rw [List.length_append, List.length_cons, length_writeDigits, length_writeDigits]
      simp only [asciiBytes_append, asciiBytes_cons, List.append_assoc, List.cons_append]
      exact readClock?_fraction small part ends

def writeClock (hour minute second microsecond : Nat) : List Char :=
  writeDigits 2 hour ++ ':' :: writeDigits 2 minute ++ ':' :: writeSeconds second microsecond

theorem readClock?_writeClock {hour minute second : Nat} (hours : hour < 100) (minutes : minute < 100)
    (seconds : second < 100) (part : microsecond < 1000000) (rest : List UInt8)
    (ends : rest.dropWhile isDigit = rest) :
    readClock? 3 none (writeClock hour minute second microsecond).length
        (asciiBytes (writeClock hour minute second microsecond) ++ rest) =
      some { fields := [hour, minute, second], microsecond, leftover := byteAt rest 0 != 0 } := by
  have length : (writeClock hour minute second microsecond).length =
      (writeSeconds second microsecond).length + 3 + 3 := by
    simp only [writeClock, List.length_append, List.length_cons, length_writeDigits]
    omega
  have long : 2 ≤ (writeSeconds second microsecond).length := by simp [writeSeconds]
  rw [length]
  simp only [writeClock, asciiBytes_append, asciiBytes_cons, List.append_assoc, List.cons_append]
  rw [readClock?_colon hours (by omega) rfl, readClock?_colon minutes (by omega) rfl,
    Nat.add_sub_cancel, Nat.add_sub_cancel, readClock?_writeSeconds seconds part ends]
  rfl

/-! ## Days -/

theorem daysInMonth_le (year month : Nat) : daysInMonth year month ≤ 31 := by
  unfold daysInMonth
  split
  case h_12 => split <;> decide
  all_goals decide

theorem IsDay.month_le {year month day : Nat} (isDay : IsDay year month day) : month ≤ 12 := by
  obtain ⟨-, -, first, last⟩ := isDay
  unfold daysInMonth at last
  split at last <;> omega

def Day.write (day : Day) : List Char :=
  writeDigits 4 day.year ++ '-' :: writeDigits 2 day.month ++ '-' :: writeDigits 2 day.day

theorem readDay?_write (day : Day) :
    readDay? limit (asciiBytes day.write ++ rest) = some day := by
  obtain ⟨-, lastYear, -, lastDay⟩ := day.isDay
  have years : day.year < 10 ^ 4 := Nat.lt_succ_of_le lastYear
  have months : day.month < 10 ^ 2 := Nat.lt_of_le_of_lt day.isDay.month_le (by decide)
  have days : day.day < 10 ^ 2 :=
    Nat.lt_of_le_of_lt (Nat.le_trans lastDay (daysInMonth_le _ _)) (by decide)
  have isMonth : (asciiBytes (writeDigits 2 day.month) ++
      (ascii '-' :: (asciiBytes (writeDigits 2 day.day) ++ rest))).head? ≠ some (ascii 'W') :=
    head?_writeDigits_ne rfl
  unfold readDay? Day.write
  simp only [asciiBytes_append, asciiBytes_cons, List.append_assoc, List.cons_append]
  rw [readNumber?_of_lt years]
  simp only [Option.bind_eq_bind, Option.bind_some, List.head?_cons, beq_self_eq_true, if_true,
    List.tail_cons]
  rw [if_neg isMonth, readNumber?_of_lt months]
  simp only [Option.bind_some, readDash?, if_true]
  rw [readNumber?_of_lt days]
  exact Day.of?_self day

theorem byteAt_append {former latter : List UInt8} {length : Nat} (taken : former.length = length)
    (position : Nat) : byteAt (former ++ latter) (length + position) = byteAt latter position := by
  rw [byteAt, List.getElem?_append_right (by omega), ← taken, Nat.add_sub_cancel_left]
  rfl

theorem dayLength?_write (day : Day) :
    dayLength? (asciiBytes day.write ++ rest) = some 10 := by
  have length : (asciiBytes day.write ++ rest).length ≠ 7 := by
    simp [Day.write]
    omega
  have years : (asciiBytes (writeDigits 4 day.year)).length = 4 := by simp
  have dash : byteAt (asciiBytes day.write ++ rest) 4 = ascii '-' := by
    simp only [Day.write, asciiBytes_append, asciiBytes_cons, List.append_assoc, List.cons_append]
    exact byteAt_append years 0
  have isMonth : byteAt (asciiBytes day.write ++ rest) 5 ≠ ascii 'W' := by
    simp only [Day.write, asciiBytes_append, asciiBytes_cons, List.append_assoc, List.cons_append]
    rw [byteAt_append years 1]
    exact byteAt_writeDigits_ne (by decide)
  unfold dayLength?
  rw [if_neg length, if_pos dash, if_neg isMonth]

/-! ## Times of day -/

def Clock.write (clock : Clock) : List Char :=
  writeClock clock.hour clock.minute clock.second clock.microsecond

theorem readClock?_write (clock : Clock) (rest : List UInt8) (ends : rest.dropWhile isDigit = rest) :
    readClock? 3 none clock.write.length (asciiBytes clock.write ++ rest) =
      some
        { fields := [clock.hour, clock.minute, clock.second], microsecond := clock.microsecond
          leftover := byteAt rest 0 != 0 } :=
  readClock?_writeClock (Nat.lt_trans clock.hour_lt (by decide))
    (Nat.lt_trans clock.minute_lt (by decide)) (Nat.lt_trans clock.second_lt (by decide))
    clock.microsecond_lt rest ends

theorem Clock.of?_self (clock : Clock) :
    of? clock.hour clock.minute clock.second clock.microsecond = some clock := by
  rw [of?, dif_pos ⟨clock.hour_lt, clock.minute_lt, clock.second_lt, clock.microsecond_lt⟩]

theorem clock?_of_fields (clock : Clock) (leftover : Bool) :
    ClockReading.clock?
        { fields := [clock.hour, clock.minute, clock.second], microsecond := clock.microsecond
          leftover } =
      some clock :=
  clock.of?_self

theorem beginsOffset_of_isDigit {byte : UInt8} (digit : isDigit byte = true) :
    beginsOffset byte = false := by
  cases begins : beginsOffset byte with
  | false => rfl
  | true =>
      have mark : (byte = ascii '+' ∨ byte = ascii '-') ∨ byte = ascii 'Z' := by
        simpa [beginsOffset] using begins
      rcases mark with (rfl | rfl) | rfl <;> exact absurd digit (by decide)

/-- Nothing in a written time of day looks like the beginning of an offset. -/
theorem takeWhile_write (clock : Clock) (rest : List UInt8) :
    (asciiBytes clock.write ++ rest).takeWhile (!beginsOffset ·) =
      asciiBytes clock.write ++ rest.takeWhile (!beginsOffset ·) := by
  refine List.takeWhile_append_of_pos fun byte member => ?_
  obtain ⟨character, written, rfl⟩ := List.mem_map.1 member
  have kind : MadeOf [':', '.'] clock.write := by
    simp [Clock.write, writeClock, writeSeconds]
  rcases kind character written with digit | mark
  · rw [beginsOffset_of_isDigit (isDigit_ascii digit)]
    rfl
  · have marks : [':', '.'].all (fun mark => !beginsOffset (ascii mark)) = true := by decide
    exact List.all_eq_true.1 marks character mark

theorem readTime?_write (clock : Clock) :
    readTime? (asciiBytes clock.write) = some (clock, Offset.utc) := by
  have taken := takeWhile_write clock []
  have read := readClock?_write clock [] rfl
  rw [List.append_nil, List.takeWhile_nil, List.append_nil] at taken
  rw [List.append_nil] at read
  have left : (asciiBytes clock.write).drop clock.write.length = [] := by
    rw [← length_asciiBytes, List.drop_length]
  unfold readTime?
  simp only [taken, length_asciiBytes, read, left, Option.bind_eq_bind, Option.bind_some,
    clock?_of_fields]
  rfl

/-! ## Offsets -/

namespace Offset

variable {offset : Offset}

def seconds (offset : Offset) : Nat := offset.microseconds.natAbs / 1000000

/-- The full form of an offset without its sign. -/
def writeSize (offset : Offset) : List Char :=
  writeDigits 2 (offset.seconds / 3600) ++ ':' :: writeDigits 2 (offset.seconds / 60 % 60) ++
    if offset.microseconds.natAbs % 60000000 = 0 then []
    else ':' :: writeSeconds (offset.seconds % 60) (offset.microseconds.natAbs % 1000000)

theorem write_eq_cons (offset : Offset) : offset.write = offset.sign :: offset.writeSize := rfl

theorem sign_eq_plus_or_minus (offset : Offset) : offset.sign = '+' ∨ offset.sign = '-' := by
  unfold sign
  split <;> simp

theorem ascii_sign_eq_minus_iff : ascii offset.sign = ascii '-' ↔ offset.microseconds < 0 := by
  unfold sign
  split
  · next below => exact iff_of_true rfl below
  · next above => exact iff_of_false (by decide) above

/-- The form of an offset without its sign is read as its hours, minutes, seconds and microseconds. -/
theorem readClock?_writeSize (offset : Offset) :
    ∃ fields, readClock? 3 none offset.writeSize.length (asciiBytes offset.writeSize) =
        some
          { fields, microsecond := offset.microseconds.natAbs % 1000000, leftover := false } ∧
      fields[0]? = some (offset.seconds / 3600) ∧ fields[1]? = some (offset.seconds / 60 % 60) ∧
        fields[2]?.getD 0 = offset.seconds % 60 := by
  have small := offset.natAbs_lt
  have hours : offset.seconds / 3600 < 100 := by
    unfold seconds microsecondsInDay at *
    omega
  have minutes : offset.seconds / 60 % 60 < 100 := Nat.lt_trans (Nat.mod_lt _ (by decide)) (by decide)
  have seconds : offset.seconds % 60 < 100 := Nat.lt_trans (Nat.mod_lt _ (by decide)) (by decide)
  have part : offset.microseconds.natAbs % 1000000 < 1000000 := Nat.mod_lt _ (by decide)
  unfold writeSize
  split
  · next none =>
      refine ⟨[offset.seconds / 3600, offset.seconds / 60 % 60], ?_, rfl, rfl, ?_⟩
      · have read := readClock?_minute hours minutes []
        rw [List.append_nil] at read
        have whole : offset.microseconds.natAbs % 1000000 = 0 := by omega
        rw [List.append_nil, whole]
        exact read
      · unfold Offset.seconds
        show 0 = _
        omega
  · next some =>
      refine ⟨[offset.seconds / 3600, offset.seconds / 60 % 60, offset.seconds % 60], ?_, rfl, rfl, rfl⟩
      have read := readClock?_writeClock hours minutes seconds part [] rfl
      rw [List.append_nil] at read
      exact read

/-- Whether an offset is none at all or reaches a second to either side. Of others the whole seconds tell
nothing. -/
def IsTold (offset : Offset) : Prop :=
  1000000 ≤ offset.microseconds.natAbs ∨ offset = utc

theorem isTold_of_mod_eq_zero (whole : offset.microseconds % 1000000 = 0) : offset.IsTold := by
  by_cases far : 1000000 ≤ offset.microseconds.natAbs
  · exact .inl far
  · refine .inr ?_
    have none : offset.microseconds = 0 := by omega
    cases offset
    cases none
    rfl

theorem offset?_of_fields {fields : List Nat} {leftover : Bool} (told : offset.IsTold)
    (hours : fields[0]? = some (offset.seconds / 3600))
    (minutes : fields[1]? = some (offset.seconds / 60 % 60))
    (seconds : fields[2]?.getD 0 = offset.seconds % 60) :
    ClockReading.offset?
        { fields, microsecond := offset.microseconds.natAbs % 1000000, leftover }
        (offset.microseconds < 0) =
      some offset := by
  have total : fields[0]?.getD 0 * 3600 + fields[1]?.getD 0 * 60 + fields[2]?.getD 0 =
      offset.seconds := by
    rw [hours, minutes, seconds, Option.getD_some, Option.getD_some]
    omega
  simp only [ClockReading.offset?, ClockReading.field, total]
  rcases told with far | rfl
  · have some : offset.seconds ≠ 0 := by
      unfold Offset.seconds
      omega
    have size : offset.seconds * 1000000 + offset.microseconds.natAbs % 1000000 =
        offset.microseconds.natAbs :=
      Nat.div_add_mod' _ _
    have signed : (if decide (offset.microseconds < 0) = true then -(offset.microseconds.natAbs : Int)
        else (offset.microseconds.natAbs : Int)) = offset.microseconds := by
      split
      · next below =>
          rw [decide_eq_true_eq] at below
          omega
      · next above =>
          rw [decide_eq_true_eq] at above
          omega
    rw [if_neg some, size, signed, of?, dif_pos offset.natAbs_lt]
  · have none : utc.seconds = 0 := by decide
    rw [none, if_pos rfl]

end Offset

/-- A time of day is read back with an offset after it. -/
theorem readTime?_write_offset (clock : Clock) {offset : Offset} (told : offset.IsTold) :
    readTime? (asciiBytes (clock.write ++ offset.write)) = some (clock, offset) := by
  obtain ⟨fields, size, hours, minutes, seconds⟩ := offset.readClock?_writeSize
  obtain ⟨begins, notDigit, notZulu⟩ : beginsOffset (ascii offset.sign) = true ∧
      isDigit (ascii offset.sign) = false ∧ ascii offset.sign ≠ ascii 'Z' := by
    rcases offset.sign_eq_plus_or_minus with plus | minus
    · rw [plus]
      decide
    · rw [minus]
      decide
  have shift := asciiBytes_cons offset.sign offset.writeSize
  rw [← Offset.write_eq_cons] at shift
  have clockEnds : (asciiBytes offset.write).dropWhile isDigit = asciiBytes offset.write := by
    simp [shift, notDigit]
  have shiftBegins : (asciiBytes offset.write).takeWhile (!beginsOffset ·) = [] := by
    simp [shift, begins]
  have taken := takeWhile_write clock (asciiBytes offset.write)
  have read := readClock?_write clock (asciiBytes offset.write) clockEnds
  have left : (asciiBytes clock.write ++ asciiBytes offset.write).drop clock.write.length =
      ascii offset.sign :: asciiBytes offset.writeSize := by
    rw [← length_asciiBytes, List.drop_left, shift]
  unfold readTime?
  simp only [asciiBytes_append, taken, shiftBegins, List.append_nil, length_asciiBytes, read, left,
    if_neg notZulu, size, Offset.ascii_sign_eq_minus_iff, Option.bind_eq_bind, Option.bind_some,
    clock?_of_fields, Offset.offset?_of_fields told hours minutes seconds]
  rfl

end WordStream.Date

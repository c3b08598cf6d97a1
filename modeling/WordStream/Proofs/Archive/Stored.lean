import WordStream.Archive.Member

/-!
# Stored members

A member that was stored as it is and is no longer than the widest piece is read in one piece: if its
checksum holds, its data are the bytes of the archive from the place on where its data begin.
-/

set_option autoImplicit false

namespace WordStream

theorem eq_ok_of_toOption {Fault Value : Type} {result : Except Fault Value} {value : Value}
    (given : result.toOption = some value) : result = .ok value := by
  cases result with
  | error fault => cases given
  | ok found =>
      cases given
      rfl

theorem Bytes.toList_slice (bytes : ByteArray) (start stop : Nat) :
    (slice bytes start stop).data.toList = (bytes.data.toList.drop start).take (stop - start) := by
  have size : bytes.size = bytes.data.toList.length := by simp
  rw [slice, ByteArray.data_extract, Array.toList_extract, List.extract_eq_take_drop, size]
  generalize bytes.data.toList = units
  by_cases inside : start ≤ units.length
  · rw [Nat.min_eq_left inside, List.take_eq_take_iff, List.length_drop]
    omega
  · rw [List.drop_eq_nil_of_le (by omega), List.drop_eq_nil_of_le (by omega), List.take_nil,
      List.take_nil]

theorem Bytes.slice_self (bytes : ByteArray) : slice bytes 0 bytes.size = bytes := by
  simp [slice]

theorem Bytes.slice_append (front middle back : ByteArray) :
    slice (front ++ middle ++ back) front.size (front.size + middle.size) = middle := by
  refine ByteArray.ext (Array.toList_inj.1 ?_)
  have length : ∀ bytes : ByteArray, bytes.size = bytes.data.toList.length := fun _ => by simp
  rw [toList_slice, length, length, Nat.add_sub_cancel_left, ByteArray.toList_data_append,
    ByteArray.toList_data_append, List.append_assoc, List.drop_left, List.take_left]

namespace Archive

variable {archive : Archive} {entry : Entry} {member : Member} {name : String} {data : ByteArray}

/-! ## Checksums -/

namespace Checksum

/-- The remainder that bytes leave, as a number. Each number is known before the next byte is taken, so that
no evaluation grows deeper with the bytes. -/
def remainderAfter : List UInt8 → Nat → Nat
  | [], remainder => remainder
  | byte :: bytes, remainder =>
      match (addByte (.ofNat remainder) byte).toNat with
      | 0 => remainderAfter bytes 0
      | less + 1 => remainderAfter bytes (less + 1)

theorem remainderAfter_eq (bytes : List UInt8) (remainder : UInt32) :
    remainderAfter bytes remainder.toNat = (bytes.foldl addByte remainder).toNat := by
  induction bytes generalizing remainder with
  | nil => rfl
  | cons byte bytes ih =>
      rw [List.foldl_cons, ← ih, remainderAfter, UInt32.ofNat_toNat]
      split
      · next none => rw [none]
      · next less some => rw [some]

theorem value_add (bytes : ByteArray) :
    (add {} bytes).value = remainderAfter bytes.data.toList 0xFFFFFFFF ^^^ 0xFFFFFFFF := by
  rw [value, remainder_add, UInt32.toNat_xor, ← remainderAfter_eq]
  rfl

end Checksum

/-! ## Opening -/

section Steps

variable {Before Found : Type} {found : Found}

theorem ok_of_bind {result : Except Fault Before} {onward : Before → Except Fault Found}
    (passed : result >>= onward = .ok found) : ∃ before, onward before = .ok found := by
  cases result with
  | error fault => cases passed
  | ok before => exact ⟨before, passed⟩

theorem ok_of_guard {condition : Prop} [Decidable condition] {fault : Fault}
    {onward : Unit → Except Fault Found}
    (passed : (if condition then throw fault >>= onward else onward ()) = .ok found) :
    onward () = .ok found := by
  split at passed
  · cases passed
  · exact passed

end Steps

/-- What lists the members is read where it stands. -/
theorem ofBytes_of_located {unpackers : Unpackers} {front directory back : ByteArray}
    {location : Location} {entries : List Entry}
    (located : locate (front ++ directory ++ back) = .ok location)
    (start : location.start = front.size) (size : location.size = directory.size)
    (listed : readEntries directory location.size location.shift (location.size / entrySize + 1) 0 [] =
      .ok entries) :
    ofBytes unpackers (front ++ directory ++ back) =
      .ok { unpackers, bytes := front ++ directory ++ back, entries, start := location.start } := by
  have found : Bytes.slice (front ++ directory ++ back) location.start
      (location.start + location.size) = directory := by
    rw [start, size]
    exact Bytes.slice_append front directory back
  rw [ofBytes, located]
  simp only [bind, Except.bind, found, listed]
  rfl

/-- An opened member is as its entry says, and nothing of it has been taken. -/
theorem openEntry_eq_ok (opened : openEntry archive entry = .ok member) :
    ∃ unpacking, archive.unpackers.begin? entry.method = some unpacking ∧
      member =
        { entry, bytes := archive.bytes, unpacking, place := member.place
          packedLeft := entry.packedSize, left := entry.size } := by
  unfold openEntry at opened
  have header := ok_of_guard (ok_of_guard (ok_of_guard (ok_of_guard (ok_of_guard
    (ok_of_guard opened)))))
  obtain ⟨_, named⟩ := ok_of_bind header
  have unhindered := ok_of_guard (ok_of_guard (ok_of_guard named))
  dsimp only at unhindered
  split at unhindered
  · cases unhindered
  · next unpacking begun =>
      cases unhindered
      exact ⟨unpacking, begun, rfl⟩

/-! ## Reading -/

theorem Member.readAll_of_stored (stored : member.unpacking = .stored)
    (unfinished : member.finished = false) (some : data.size ≠ 0) (short : data.size ≤ widestPiece)
    (packed : member.packedLeft = data.size) (unpacked : member.left = data.size)
    (found : Bytes.slice member.bytes member.place (member.place + data.size) = data)
    (checked : (member.checksum.add data).value = member.entry.checksum) :
    member.readAll = .ok data := by
  have count : min (max widestPiece leastPiece) data.size = data.size := by
    unfold widestPiece leastPiece at *
    omega
  have few : ¬wordBound ≤ data.size := by
    unfold widestPiece wordBound at *
    omega
  have taken : member.takePacked widestPiece =
      .ok (data, { member with place := member.place + data.size, packedLeft := 0 }) := by
    simp only [takePacked, packed, if_neg some, count, found, if_neg few, Nat.sub_self]
  have next : member.next widestPiece =
      .ok (data, { member with
        place := member.place + data.size, packedLeft := 0, left := 0, finished := true
        checksum := member.checksum.add data }) := by
    simp [Member.next, unpackNext, copy, taken, stored, unpacked, Bytes.slice_self, checked, bind,
      Except.bind, pure, Except.pure]
  rw [readAll, readRest, unfinished, next]
  simp [readRest, bind, Except.bind, pure, Except.pure]

theorem read?_of_stored (found : archive.find? name = some entry)
    (opened : openEntry archive entry = .ok member) (stored : entry.method = 0)
    (some : data.size ≠ 0) (short : data.size ≤ Member.widestPiece)
    (packed : entry.packedSize = data.size) (unpacked : entry.size = data.size)
    (bytes : Bytes.slice archive.bytes member.place (member.place + data.size) = data)
    (checked : (Checksum.add {} data).value = entry.checksum) :
    archive.read? name = .some (.ok data) := by
  have whole : member.readAll = .ok data := by
    obtain ⟨unpacking, begun, told⟩ := openEntry_eq_ok opened
    rw [stored] at begun
    rw [told]
    exact Member.readAll_of_stored (Option.some.inj begun).symm rfl some short packed unpacked bytes
      checked
  simp only [read?, open?, found, Option.map_some, opened, bind, Except.bind, whole]

end Archive

end WordStream

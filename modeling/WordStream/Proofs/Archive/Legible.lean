import WordStream.Archive.Member

/-!
# Faults of members

Only the directory of an archive can be unreadable. Once it is read, every fault that a member meets,
while it is opened or while its data is taken, is one of its own.
-/

set_option autoImplicit false

namespace WordStream.Archive

/-- Whether what was done with an archive did not end because there is no directory to read. -/
def Legible {α : Type} (result : Except Fault α) : Prop :=
  result ≠ .error .unreadable

section Steps

variable {α β : Type}

theorem legible_ok (found : α) : Legible (.ok found) := nofun

theorem legible_error {fault : Fault} (other : fault ≠ .unreadable) :
    Legible (.error fault : Except Fault α) :=
  fun same => other (Except.error.inj same)

theorem Legible.ne {result : Except Fault α} (legible : Legible result) {fault : Fault}
    (met : result = .error fault) : fault ≠ .unreadable :=
  fun same => legible (same ▸ met)

theorem Legible.bind {result : Except Fault α} {onward : α → Except Fault β}
    (before : Legible result) (after : ∀ found, Legible (onward found)) :
    Legible (result >>= onward) := by
  cases result with
  | ok found => exact after found
  | error fault => exact legible_error (before.ne rfl)

theorem legible_guard {condition : Prop} [Decidable condition] {fault : Fault}
    {onward : Unit → Except Fault α} (other : fault ≠ .unreadable) (after : Legible (onward ())) :
    Legible (if condition then throw fault >>= onward else onward ()) := by
  split
  · exact legible_error other
  · exact after

theorem legible_choice {condition : Prop} [Decidable condition] {former latter : Except Fault α}
    {onward : α → Except Fault β} (before : Legible former) (other : Legible latter)
    (after : ∀ found, Legible (onward found)) :
    Legible (if condition then former >>= onward else latter >>= onward) := by
  split
  · exact before.bind after
  · exact other.bind after

end Steps

/-! ## Opening -/

theorem legible_readName (flags : Nat) (bytes : ByteArray) : Legible (readName flags bytes) := by
  unfold readName
  split
  · cases Text.readUtf8 bytes with
    | ok text => exact legible_ok text
    | error fault => exact legible_error nofun
  · exact legible_ok _

theorem legible_openEntry (archive : Archive) (entry : Entry) :
    Legible (openEntry archive entry) := by
  unfold openEntry
  refine legible_guard nofun ?_
  refine legible_guard nofun ?_
  refine legible_guard nofun ?_
  refine legible_guard nofun ?_
  refine legible_guard nofun ?_
  refine legible_guard nofun ?_
  refine (legible_readName _ _).bind fun name => ?_
  refine legible_guard nofun ?_
  refine legible_guard nofun ?_
  refine legible_guard nofun ?_
  dsimp only
  split
  · exact legible_error nofun
  · exact legible_ok _

/-! ## Reading -/

namespace Member

theorem legible_takePacked (member : Member) (wanted : Nat) :
    Legible (member.takePacked wanted) := by
  unfold takePacked
  split
  · exact legible_ok _
  · dsimp only
    split
    · exact legible_error nofun
    · split
      · exact legible_error nofun
      · exact legible_ok _

theorem legible_inflate (member : Member) (inflation : Inflation) (wanted : Nat) :
    Legible (member.inflate inflation wanted) := by
  unfold inflate
  refine legible_choice (legible_takePacked member _) (legible_ok _) fun taken => ?_
  refine legible_guard nofun ?_
  dsimp only
  split
  · exact legible_error nofun
  · exact legible_ok _

theorem legible_copy (member : Member) (wanted : Nat) : Legible (member.copy wanted) := by
  unfold copy
  exact (legible_takePacked member wanted).bind fun taken => legible_ok _

theorem legible_refused {α : Type} (result : Except Refusal α) :
    Legible (result.mapError .refusedData) := by
  cases result with
  | ok found => exact legible_ok found
  | error refusal => exact legible_error nofun

theorem legible_unpack (member : Member) (unpacker : Unpacker) (earlier : List ByteArray)
    (piece : ByteArray) : Legible (member.unpack unpacker earlier piece) := by
  unfold unpack
  exact (legible_refused _).bind fun unpacked => legible_ok _

theorem legible_unpackFront (member : Member) (choose : ByteArray → Except Refusal Unpacker)
    (front : ByteArray) : Legible (member.unpackFront choose front) := by
  unfold unpackFront
  split
  · exact legible_ok _
  · exact (legible_refused _).bind fun unpacker => legible_unpack member unpacker [] _

theorem legible_unpackNext (member : Member) (wanted : Nat) :
    Legible (member.unpackNext wanted) := by
  unfold unpackNext
  split
  · exact legible_copy member wanted
  · exact legible_inflate member _ wanted
  · exact (legible_takePacked member wanted).bind fun taken => legible_unpack taken.2 _ _ taken.1
  · exact (legible_takePacked member wanted).bind fun taken => legible_unpackFront taken.2 _ _

theorem legible_next (member : Member) (wanted : Nat) : Legible (member.next wanted) := by
  unfold next
  refine (legible_unpackNext member wanted).bind fun found => ?_
  exact legible_guard nofun (legible_ok _)

theorem legible_readOn (rounds wanted : Nat) (done : ByteArray) (member : Member) :
    Legible (readOn rounds wanted done member) := by
  induction rounds generalizing wanted done member with
  | zero => exact legible_ok _
  | succ rounds ih =>
      unfold readOn
      dsimp only
      split
      · exact legible_ok _
      · refine (legible_next member wanted).bind fun found => ?_
        split
        · exact legible_ok _
        · exact ih _ _ _

theorem legible_read (member : Member) (wanted : Nat) : Legible (member.read wanted) := by
  unfold read
  dsimp only
  split
  · exact legible_ok _
  · exact legible_readOn _ _ _ _

theorem legible_readRest (rounds : Nat) (done : ByteArray) (member : Member) :
    Legible (readRest rounds done member) := by
  induction rounds generalizing done member with
  | zero => exact legible_ok done
  | succ rounds ih =>
      unfold readRest
      dsimp only
      split
      · exact legible_ok done
      · exact (legible_next member widestPiece).bind fun found => ih _ _

theorem chunksAfter_ne_unreadable (size rounds : Nat) (done : List ByteArray) (member : Member) :
    (chunksAfter size rounds done member).2 ≠ some .unreadable := by
  induction rounds generalizing done member with
  | zero => exact nofun
  | succ rounds ih =>
      unfold chunksAfter
      cases met : member.read size with
      | error fault => exact fun same => (legible_read member size).ne met (Option.some.inj same)
      | ok found =>
          dsimp only
          split
          · exact nofun
          · exact ih _ _

end Member

/-! ## Members by their names -/

variable {archive : Archive} {name : String} {fault : Fault}

theorem ne_unreadable_of_open? (met : archive.open? name = some (.error fault)) :
    fault ≠ .unreadable := by
  obtain ⟨entry, -, opened⟩ := Option.map_eq_some_iff.mp met
  exact (legible_openEntry archive entry).ne opened

theorem ne_unreadable_of_read? (met : archive.read? name = some (.error fault)) :
    fault ≠ .unreadable := by
  obtain ⟨opened, found, read⟩ := Option.map_eq_some_iff.mp met
  obtain ⟨entry, -, rfl⟩ := Option.map_eq_some_iff.mp found
  have legible := (legible_openEntry archive entry).bind fun member =>
    Member.legible_readRest (member.left + 2 * member.packedLeft + 2) .empty member
  exact legible.ne read

theorem ne_unreadable_of_chunks {member : Member} {size : Nat}
    (met : (member.chunks size).2 = some fault) : fault ≠ .unreadable := by
  intro same
  have reached : (Member.chunksAfter size (member.left + 1) [] member).2 = some fault := met
  exact Member.chunksAfter_ne_unreadable size (member.left + 1) [] member (same ▸ reached)

end WordStream.Archive

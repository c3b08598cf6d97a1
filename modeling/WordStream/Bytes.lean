/-!
# Bytes

Slices of byte arrays with bounds of any size, and folds. A fold over a byte array is the fold over the
list of its bytes, which is what proofs speak of.
-/

set_option autoImplicit false

namespace WordStream.Bytes

/-- The bytes from one place up to another, as far as there are any. -/
def slice (bytes : ByteArray) (start stop : Nat) : ByteArray :=
  bytes.extract (min start bytes.size) (min stop bytes.size)

private theorem foldlM_loop_eq {State : Type} (step : State → UInt8 → State)
    (bytes : ByteArray) (count position : Nat) (state : State)
    (total : position + count = bytes.size) :
    Id.run
        (ByteArray.foldlM.loop (fun state byte => pure (step state byte)) bytes bytes.size
          (Nat.le_refl _) count position state) =
      (bytes.data.toList.drop position).foldl step state := by
  induction count generalizing position state with
  | zero =>
      have finished : bytes.data.toList.drop position = [] := by
        apply List.drop_eq_nil_of_le
        have : bytes.data.size = bytes.size := rfl
        simp only [Array.length_toList]
        omega
      unfold ByteArray.foldlM.loop
      rw [finished]
      split <;> simp
  | succ count ih =>
      have inside : position < bytes.size := by omega
      have next : bytes.data.toList.drop position =
          bytes[position] :: bytes.data.toList.drop (position + 1) := by
        rw [List.drop_eq_getElem_cons (by simpa using inside)]
        rfl
      unfold ByteArray.foldlM.loop
      rw [dif_pos inside, next, List.foldl_cons,
        ← ih (position + 1) (step state bytes[position]) (by omega)]
      rfl

theorem foldl_eq_foldl_toList {State : Type} (step : State → UInt8 → State) (initial : State)
    (bytes : ByteArray) : bytes.foldl step initial = bytes.data.toList.foldl step initial := by
  unfold ByteArray.foldl ByteArray.foldlM
  rw [dif_pos (Nat.le_refl _)]
  exact foldlM_loop_eq step bytes bytes.size 0 initial (by omega)

end WordStream.Bytes

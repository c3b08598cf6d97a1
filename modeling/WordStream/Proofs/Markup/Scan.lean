import Mathlib.Data.List.TakeDrop
import WordStream.Markup.Scan

/-!
# Scans one by one

What each of the scans takes from which all others are built. A scan gives a value with the characters that it
leaves, or it fails.
-/

set_option autoImplicit false

namespace WordStream.Markup

variable {α β : Type} {text : List Char} {record : Record}

namespace Reader

theorem bind_eq_some_iff {reader : Reader α} {onward : α → Reader β} {result : β × Record} :
    (reader >>= onward) record = some result ↔
      ∃ value later, reader record = some (value, later) ∧ onward value later = some result := by
  refine Option.bind_eq_some_iff.trans ⟨?_, ?_⟩
  · rintro ⟨⟨value, later⟩, read, rest⟩
    exact ⟨value, later, read, rest⟩
  · rintro ⟨value, later, read, rest⟩
    exact ⟨(value, later), read, rest⟩

theorem bind_run {reader : Reader α} {onward : α → Reader β} {value : α} {later : Record}
    (read : reader record = some (value, later)) :
    (reader >>= onward) record = onward value later :=
  (congrArg (Option.bind · _) read).trans rfl

theorem map_run {reader : Reader α} {value : α} {later : Record}
    (read : reader record = some (value, later)) (change : α → β) :
    (change <$> reader) record = some (change value, later) := by
  have unfolded : change <$> reader = reader >>= fun value => pure (change value) := rfl
  rw [unfolded, bind_run read]
  rfl

end Reader

namespace Scan

theorem bind_eq_some_iff {scan : Scan α} {onward : α → Scan β}
    {result : (β × List Char) × Record} :
    (scan >>= onward) text record = some result ↔
      ∃ value left later, scan text record = some ((value, left), later) ∧
        onward value left later = some result := by
  refine Option.bind_eq_some_iff.trans ⟨?_, ?_⟩
  · rintro ⟨⟨⟨value, left⟩, later⟩, taken, rest⟩
    exact ⟨value, left, later, taken, rest⟩
  · rintro ⟨value, left, later, taken, rest⟩
    exact ⟨((value, left), later), taken, rest⟩

theorem bind_run {scan : Scan α} {onward : α → Scan β} {value : α} {left : List Char}
    {later : Record} (taken : scan text record = some ((value, left), later)) :
    (scan >>= onward) text record = onward value left later :=
  (congrArg (Option.bind · _) taken).trans rfl

theorem rest_run : rest text record = some ((text, text), record) :=
  rfl

theorem map_eq_bind (change : α → β) (scan : Scan α) :
    change <$> scan = scan >>= fun value => pure (change value) :=
  rfl

theorem map_run (change : α → β) (scan : Scan α) :
    (change <$> scan) text record =
      (scan text record).map fun result => ((change result.1.1, result.1.2), result.2) := by
  change (scan text record).bind _ = _
  cases scan text record <;> rfl

theorem discard_eq_bind (scan : Scan α) : discard scan = scan >>= fun _ => pure () :=
  rfl

theorem guard_run (condition : Prop) [Decidable condition] :
    (guard condition : Scan Unit) text record =
      if condition then some (((), text), record) else none := by
  unfold guard
  split <;> rfl

theorem liftM_run (reader : Reader α) :
    (liftM reader : Scan α) text record =
      (reader record).map fun result => ((result.1, text), result.2) := by
  have unfolded : (liftM reader : Scan α) text record =
      (reader record).bind fun result => some ((result.1, text), result.2) := rfl
  rw [unfolded]
  cases reader record <;> rfl

theorem exact_run (mark : String) :
    exact mark text record =
      (dropExact? mark.toList text).map fun left => (((), left), record) := by
  rw [exact, bind_run rest_run]
  cases dropExact? mark.toList text <;> rfl

theorem taken_run (mark : String) :
    taken mark text record =
      match dropExact? mark.toList text with
      | some left => some ((true, left), record)
      | none => some ((false, text), record) := by
  rw [taken, bind_run rest_run]
  cases dropExact? mark.toList text <;> rfl

/-- Whether a text begins with a mark, and what is left of it. -/
def takenFrom (mark text : List Char) : Bool × List Char :=
  ((dropExact? mark text).isSome, (dropExact? mark text).getD text)

theorem taken_eq (mark : String) :
    taken mark text record = some (takenFrom mark.toList text, record) := by
  rw [taken_run, takenFrom]
  cases dropExact? mark.toList text <;> rfl

theorem takeWhile_run (accept : Char → Bool) :
    takeWhile accept text record =
      some ((text.takeWhile accept, text.dropWhile accept), record) := by
  have unfolded : takeWhile accept text record =
      some (((text.span accept).1, (text.span accept).2), record) := rfl
  rw [unfolded, List.span_eq_takeWhile_dropWhile]

theorem upTo_run (mark : String) :
    upTo mark text record =
      (splitAt? mark.toList [] text).map fun parts => ((parts.1, parts.2), record) := by
  rw [upTo, bind_run rest_run]
  cases splitAt? mark.toList [] text <;> rfl

/-- A mark is dropped from a text that begins with it. -/
theorem dropExact?_eq_some_iff {mark text left : List Char} :
    dropExact? mark text = some left ↔ text = mark ++ left := by
  fun_induction dropExact? mark text with
  | case1 text => rw [Option.some_inj, List.nil_append]
  | case2 first mark => simp
  | case3 mark first text ih => rw [ih, List.cons_append, List.cons.injEq, and_iff_right rfl]
  | case4 wanted mark first text other =>
      refine iff_of_false (fun taken => nomatch taken) fun same => other ?_
      rw [List.cons_append, List.cons.injEq] at same
      exact same.1

theorem dropExact?_eq_none_iff {mark text : List Char} :
    dropExact? mark text = none ↔ ¬mark.isPrefixOf text = true := by
  rw [List.isPrefixOf_iff_prefix, Option.eq_none_iff_forall_not_mem]
  refine ⟨?_, ?_⟩
  · rintro absent ⟨left, same⟩
    exact absent left (dropExact?_eq_some_iff.2 same.symm)
  · intro absent left dropped
    exact absent ⟨left, (dropExact?_eq_some_iff.1 dropped).symm⟩

theorem exact_eq_some {mark : String} {value : Unit} {left : List Char} {later : Record}
    (taken : exact mark text record = some ((value, left), later)) :
    text = mark.toList ++ left := by
  rw [exact_run] at taken
  obtain ⟨rest, dropped, same⟩ := Option.map_eq_some_iff.1 taken
  cases same
  exact dropExact?_eq_some_iff.1 dropped

theorem splitAt?_of_some {mark text left : List Char} (dropped : dropExact? mark text = some left)
    (before : List Char) : splitAt? mark before text = some (before.reverse, left) := by
  rw [splitAt?.eq_def]
  simp only [dropped]

theorem splitAt?_cons_of_none {mark text : List Char} {first : Char}
    (dropped : dropExact? mark (first :: text) = none) (before : List Char) :
    splitAt? mark before (first :: text) = splitAt? mark (first :: before) text := by
  rw [splitAt?.eq_def]
  simp only [dropped]

theorem eq_append_of_splitAt? {mark before text found left : List Char}
    (split : splitAt? mark before text = some (found, left)) :
    ∃ front, found = before.reverse ++ front ∧ text = front ++ (mark ++ left) := by
  induction text generalizing before with
  | nil =>
      rw [splitAt?] at split
      split at split
      · next rest dropped =>
          obtain ⟨rfl, rfl⟩ := Prod.mk.inj (Option.some.inj split)
          exact ⟨[], (List.append_nil _).symm, (dropExact?_eq_some_iff.1 dropped :)⟩
      · cases split
  | cons first text ih =>
      rw [splitAt?] at split
      split at split
      · next rest dropped =>
          obtain ⟨rfl, rfl⟩ := Prod.mk.inj (Option.some.inj split)
          exact ⟨[], (List.append_nil _).symm, (dropExact?_eq_some_iff.1 dropped :)⟩
      · obtain ⟨front, rfl, rfl⟩ := ih split
        exact ⟨first :: front, by simp, rfl⟩

end Scan

end WordStream.Markup

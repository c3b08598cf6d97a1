import Mathlib.Data.List.TakeWhile
import WordStream.Proofs.Markup.Matching

/-!
# Scans of a text that goes on

A document arrives in chunks, so that a scan may be given a text of which more follows. A scan lasts if it takes
the same of a text wherever more follows that, as long as what it leaves holds a mark that it cannot pass. A scan
closes if it ends with such a mark, so that no more text is needed to tell what it takes.
-/

set_option autoImplicit false

namespace WordStream.Markup

namespace Scan

variable {α β : Type}

/-- A character with which parts of a document end. -/
class Stop (stop : Char) : Prop where
  closes : stop = '>' ∨ stop = '['

instance : Stop '>' := ⟨.inl rfl⟩

instance : Stop '[' := ⟨.inr rfl⟩

/-- Whether a mark is not empty and no character with which parts of a document end stands in it before its
last one. -/
class Mark (mark : String) : Prop where
  filled : mark.toList ≠ []
  outside : (mark.toList.dropLast.all fun stop => stop != '>' && stop != '[') = true

theorem Mark.not_mem (mark : String) [Mark mark] (stop : Char) [closing : Stop stop] :
    stop ∉ mark.toList.dropLast := by
  intro member
  have plain : (mark.toList.dropLast.all fun stop => stop != '>' && stop != '[') = true := Mark.outside
  have other := List.all_eq_true.1 plain stop member
  rw [Bool.and_eq_true, bne_iff_ne, bne_iff_ne] at other
  exact closing.closes.elim other.1 other.2

/-- Whether a scan does not look at the text. -/
class Idle (scan : Scan α) : Prop where
  read : ∃ reader : Reader α, scan = liftM reader

/-- Whether a scan takes the same of a text that goes on, where it leaves a mark in the text. -/
class Lasting (stop : Char) (scan : Scan α) : Prop where
  suffix : ∀ {text record value left later},
    scan text record = some ((value, left), later) → left <:+ text
  lasts : ∀ {text record value left later} (more : List Char), stop ∈ left →
    (scan (text ++ more) record = some ((value, left ++ more), later) ↔
      scan text record = some ((value, left), later))

/-- Whether a scan takes a mark, and the same of a text that goes on. -/
class Closing (stop : Char) (scan : Scan α) : Prop where
  suffix : ∀ {text record value left later},
    scan text record = some ((value, left), later) → left <:+ text
  takes : ∀ {text record value left later},
    scan text record = some ((value, left), later) → stop ∈ text
  lasts : ∀ {text record value left later} (more : List Char),
    (scan (text ++ more) record = some ((value, left ++ more), later) ↔
      scan text record = some ((value, left), later))

variable {stop : Char}

/-- What is left in front of more text is what was left of a front. -/
theorem exists_front {left more between : List Char} (suffix : left ++ more <:+ between) :
    ∃ front, between = front ++ more ∧ left <:+ front := by
  obtain ⟨before, rfl⟩ := suffix
  exact ⟨before ++ left, (List.append_assoc ..).symm, before, rfl⟩

/-! ## Scans that do not look at the text -/

theorem idle_run (scan : Scan α) [idle : Idle scan] :
    ∃ reader : Reader α, ∀ text record,
      scan text record = (reader record).map fun result => ((result.1, text), result.2) := by
  obtain ⟨reader, rfl⟩ := idle.read
  exact ⟨reader, fun text record => liftM_run reader⟩

theorem Idle.lasts {scan : Scan α} [Idle scan] {text left : List Char} {record later : Record}
    {value : α} (more : List Char) :
    scan (text ++ more) record = some ((value, left ++ more), later) ↔
      scan text record = some ((value, left), later) := by
  obtain ⟨reader, runs⟩ := idle_run scan
  rw [runs, runs]
  cases reader record with
  | none => simp
  | some result => simp

theorem Idle.left_eq {scan : Scan α} [Idle scan] {text left : List Char} {record later : Record}
    {value : α} (taken : scan text record = some ((value, left), later)) : left = text := by
  obtain ⟨reader, runs⟩ := idle_run scan
  rw [runs] at taken
  obtain ⟨result, -, same⟩ := Option.map_eq_some_iff.1 taken
  cases same
  rfl

instance {reader : Reader α} : Idle (liftM reader : Scan α) := ⟨reader, rfl⟩

instance (found : Option α) : Idle (liftM found : Scan α) :=
  inferInstanceAs (Idle (liftM (liftM found : Reader α)))

instance (value : α) : Idle (pure value : Scan α) := ⟨pure value, rfl⟩

instance : Idle (failure : Scan α) := ⟨failure, rfl⟩

instance {first : Scan α} {next : α → Scan β} [idle : Idle first] [idleNext : ∀ value, Idle (next value)] :
    Idle (first >>= next) := by
  obtain ⟨reader, rfl⟩ := idle.read
  choose onward same using fun value => (idleNext value).read
  obtain rfl : next = fun value => liftM (onward value) := funext same
  exact ⟨reader >>= onward, (liftM_bind reader onward).symm⟩

instance {condition : Prop} [Decidable condition] {first second : Scan α} [Idle first]
    [Idle second] : Idle (if condition then first else second) := by
  split <;> infer_instance

instance {condition : Prop} [Decidable condition] : Idle (guard condition : Scan Unit) := by
  unfold guard
  infer_instance

theorem Idle.after {first : Scan α} [Idle first] {next : α → Scan β}
    (nextIdles : ∀ value, Idle (next value)) : Idle (first >>= next) :=
  inferInstance

instance {scan : Scan α} [Idle scan] : Lasting stop scan where
  suffix taken := Idle.left_eq taken ▸ List.suffix_rfl
  lasts more _ := Idle.lasts more

/-! ## One scan after the other -/

instance {scan : Scan α} [closing : Closing stop scan] : Lasting stop scan where
  suffix := closing.suffix
  lasts more _ := closing.lasts more

instance {first : Scan α} {next : α → Scan β} [one : Lasting stop first]
    [other : ∀ value, Lasting stop (next value)] : Lasting stop (first >>= next) where
  suffix taken := by
    obtain ⟨value, left, later, takenFirst, takenNext⟩ := bind_eq_some_iff.1 taken
    exact ((other value).suffix takenNext).trans (one.suffix takenFirst)
  lasts more kept := by
    rw [bind_eq_some_iff, bind_eq_some_iff]
    constructor
    · rintro ⟨value, between, middle, takenFirst, takenNext⟩
      obtain ⟨rest, rfl, suffix⟩ := exists_front ((other value).suffix takenNext)
      exact ⟨value, rest, middle, (one.lasts more (suffix.subset kept)).1 takenFirst,
        ((other value).lasts more kept).1 takenNext⟩
    · rintro ⟨value, rest, middle, takenFirst, takenNext⟩
      have suffix := (other value).suffix takenNext
      exact ⟨value, rest ++ more, middle, (one.lasts more (suffix.subset kept)).2 takenFirst,
        ((other value).lasts more kept).2 takenNext⟩

/-- What closes may stand behind what lasts. -/
instance {first : Scan α} {next : α → Scan β} [one : Lasting stop first]
    [other : ∀ value, Closing stop (next value)] : Closing stop (first >>= next) where
  suffix taken := by
    obtain ⟨value, left, later, takenFirst, takenNext⟩ := bind_eq_some_iff.1 taken
    exact ((other value).suffix takenNext).trans (one.suffix takenFirst)
  takes taken := by
    obtain ⟨value, left, later, takenFirst, takenNext⟩ := bind_eq_some_iff.1 taken
    exact (one.suffix takenFirst).subset ((other value).takes takenNext)
  lasts more := by
    rw [bind_eq_some_iff, bind_eq_some_iff]
    constructor
    · rintro ⟨value, between, middle, takenFirst, takenNext⟩
      obtain ⟨rest, rfl, -⟩ := exists_front ((other value).suffix takenNext)
      have takenNext := ((other value).lasts more).1 takenNext
      exact ⟨value, rest, middle, (one.lasts more ((other value).takes takenNext)).1 takenFirst,
        takenNext⟩
    · rintro ⟨value, rest, middle, takenFirst, takenNext⟩
      exact ⟨value, rest ++ more, middle, (one.lasts more ((other value).takes takenNext)).2 takenFirst,
        ((other value).lasts more).2 takenNext⟩

/-- What does not look at the text may stand behind what closes. -/
instance {first : Scan α} {next : α → Scan β} [one : Closing stop first]
    [∀ value, Idle (next value)] : Closing stop (first >>= next) where
  suffix taken := by
    obtain ⟨value, left, later, takenFirst, takenNext⟩ := bind_eq_some_iff.1 taken
    exact Idle.left_eq takenNext ▸ one.suffix takenFirst
  takes taken := by
    obtain ⟨value, left, later, takenFirst, takenNext⟩ := bind_eq_some_iff.1 taken
    exact one.takes takenFirst
  lasts more := by
    rw [bind_eq_some_iff, bind_eq_some_iff]
    constructor
    · rintro ⟨value, between, middle, takenFirst, takenNext⟩
      obtain rfl := Idle.left_eq takenNext
      exact ⟨value, _, middle, (one.lasts more).1 takenFirst, (Idle.lasts more).1 takenNext⟩
    · rintro ⟨value, rest, middle, takenFirst, takenNext⟩
      exact ⟨value, rest ++ more, middle, (one.lasts more).2 takenFirst, (Idle.lasts more).2 takenNext⟩

instance {condition : Prop} [Decidable condition] {first second : Scan α} [Lasting stop first]
    [Lasting stop second] : Lasting stop (if condition then first else second) := by
  split <;> infer_instance

instance {condition : Prop} [Decidable condition] {first second : Scan α} [Closing stop first]
    [Closing stop second] : Closing stop (if condition then first else second) := by
  split <;> infer_instance

instance {scan : Scan α} {change : α → β} [Lasting stop scan] : Lasting stop (change <$> scan) :=
  inferInstanceAs (Lasting stop (scan >>= fun value => pure (change value)))

instance {scan : Scan α} [Lasting stop scan] : Lasting stop (discard scan) :=
  inferInstanceAs (Lasting stop (scan >>= fun _ => pure ()))

theorem Lasting.after {first : Scan α} [Lasting stop first] {next : α → Scan β}
    (nextLasts : ∀ value, Lasting stop (next value)) : Lasting stop (first >>= next) :=
  inferInstance

theorem Lasting.ite {condition : Prop} [Decidable condition] {first second : Scan α}
    (whenTrue : Lasting stop first) (whenFalse : Lasting stop second) :
    Lasting stop (if condition then first else second) :=
  inferInstance

/-- What lasts may stand before something in some cases only. -/
theorem Lasting.when {condition : Prop} [Decidable condition] {first : Scan Unit} [Lasting stop first]
    {next : Unit → Scan β} (nextLasts : ∀ value, Lasting stop (next value)) :
    Lasting stop (if condition then first >>= next else next ()) :=
  .ite (.after nextLasts) (nextLasts ())

theorem Closing.after {first : Scan α} [Lasting stop first] {next : α → Scan β}
    (nextCloses : ∀ value, Closing stop (next value)) : Closing stop (first >>= next) :=
  inferInstance

theorem Closing.before {first : Scan α} [Closing stop first] {next : α → Scan β}
    (nextIdles : ∀ value, Idle (next value)) : Closing stop (first >>= next) :=
  inferInstance

/-! ## What takes characters -/

theorem dropExact?_append {mark text left more : List Char} :
    dropExact? mark (text ++ more) = some (left ++ more) ↔ dropExact? mark text = some left := by
  rw [dropExact?_eq_some_iff, dropExact?_eq_some_iff, ← List.append_assoc, List.append_left_inj]

/-- A text that holds a stop begins with a mark wherever it begins with it when more follows. -/
theorem isSome_dropExact?_append (mark : String) [Mark mark] [Stop stop] {text : List Char}
    (kept : stop ∈ text) (more : List Char) :
    (dropExact? mark.toList (text ++ more)).isSome = (dropExact? mark.toList text).isSome := by
  rw [Bool.eq_iff_iff, Option.isSome_iff_exists, Option.isSome_iff_exists]
  constructor
  · rintro ⟨left, dropped⟩
    have same := dropExact?_eq_some_iff.1 dropped
    rcases List.append_eq_append_iff.1 same with ⟨rest, marked, -⟩ | ⟨rest, split, -⟩
    · rcases List.eq_nil_or_concat rest with rfl | ⟨rest, last, rfl⟩
      · exact ⟨[], dropExact?_eq_some_iff.2 (by rw [marked, List.append_nil, List.append_nil])⟩
      · refine absurd ?_ (Mark.not_mem mark stop)
        rw [marked, List.concat_eq_append, ← List.append_assoc, List.dropLast_concat]
        exact List.mem_append_left _ kept
    · exact ⟨rest, dropExact?_eq_some_iff.2 split⟩
  · rintro ⟨left, dropped⟩
    exact ⟨left ++ more, dropExact?_append.2 dropped⟩

theorem exact_append {mark : String} {text left more : List Char} {record later : Record}
    {value : Unit} :
    exact mark (text ++ more) record = some ((value, left ++ more), later) ↔
      exact mark text record = some ((value, left), later) := by
  rw [exact_run, exact_run, Option.map_eq_some_iff, Option.map_eq_some_iff]
  constructor
  · rintro ⟨rest, dropped, same⟩
    cases same
    exact ⟨left, dropExact?_append.1 dropped, rfl⟩
  · rintro ⟨rest, dropped, same⟩
    cases same
    exact ⟨left ++ more, dropExact?_append.2 dropped, rfl⟩

instance (mark : String) : Lasting stop (exact mark) where
  suffix taken := ⟨mark.toList, (exact_eq_some taken).symm⟩
  lasts _ _ := exact_append

theorem closing_exact {mark : String} (closed : stop ∈ mark.toList) : Closing stop (exact mark) where
  suffix taken := ⟨mark.toList, (exact_eq_some taken).symm⟩
  takes taken := exact_eq_some taken ▸ List.mem_append_left _ closed
  lasts _ := exact_append

instance : Closing '>' (exact ">") := closing_exact (List.mem_singleton.2 rfl)

/-- A text is split at the first place of a mark, whatever follows. -/
theorem splitAt?_append {mark before text found left more : List Char} (filled : mark ≠ []) :
    splitAt? mark before (text ++ more) = some (found, left ++ more) ↔
      splitAt? mark before text = some (found, left) := by
  induction text generalizing before with
  | nil =>
      refine iff_of_false (fun split => filled ?_) fun split => filled ?_
      · obtain ⟨front, -, same⟩ := eq_append_of_splitAt? split
        have lengths := congrArg List.length same
        simp only [List.nil_append, List.length_append] at lengths
        exact List.length_eq_zero_iff.1 (by omega)
      · obtain ⟨front, -, same⟩ := eq_append_of_splitAt? split
        exact (List.append_eq_nil_iff.1 (List.append_eq_nil_iff.1 same.symm).2).1
  | cons first text ih =>
      cases dropped : dropExact? mark (first :: text) with
      | some rest =>
          rw [splitAt?_of_some (dropExact?_append.2 dropped), splitAt?_of_some dropped]
          simp only [Option.some_inj, Prod.mk.injEq, List.append_left_inj]
      | none =>
          cases longer : dropExact? mark (first :: (text ++ more)) with
          | none =>
              rw [List.cons_append, splitAt?_cons_of_none longer, splitAt?_cons_of_none dropped]
              exact ih
          | some rest =>
              have marked := dropExact?_eq_some_iff.1 longer
              rw [← List.cons_append] at longer
              rw [splitAt?_of_some longer, splitAt?_cons_of_none dropped]
              refine iff_of_false (fun split => ?_) fun split => ?_
              · cases split
                rw [dropExact?_append.1 longer] at dropped
                cases dropped
              · obtain ⟨front, -, rfl⟩ := eq_append_of_splitAt? split
                rcases List.append_eq_append_iff.1 ((List.cons_append ..).trans marked) with
                  ⟨back, longerMark, -⟩ | ⟨back, shorterMark, -⟩
                · have lengths := congrArg List.length longerMark
                  simp only [List.length_append, List.length_cons] at lengths
                  omega
                · rw [dropExact?_eq_some_iff.2 shorterMark] at dropped
                  cases dropped

theorem upTo_append {mark : String} (filled : mark.toList ≠ []) {text left more value : List Char}
    {record later : Record} :
    upTo mark (text ++ more) record = some ((value, left ++ more), later) ↔
      upTo mark text record = some ((value, left), later) := by
  rw [upTo_run, upTo_run, Option.map_eq_some_iff, Option.map_eq_some_iff]
  constructor
  · rintro ⟨⟨found, rest⟩, split, same⟩
    cases same
    exact ⟨_, (splitAt?_append filled).1 split, rfl⟩
  · rintro ⟨⟨found, rest⟩, split, same⟩
    cases same
    exact ⟨_, (splitAt?_append filled).2 split, rfl⟩

theorem eq_append_of_upTo {mark : String} {text left value : List Char} {record later : Record}
    (taken : upTo mark text record = some ((value, left), later)) :
    ∃ front, text = front ++ (mark.toList ++ left) := by
  rw [upTo_run] at taken
  obtain ⟨⟨found, rest⟩, split, same⟩ := Option.map_eq_some_iff.1 taken
  cases same
  obtain ⟨front, -, rfl⟩ := eq_append_of_splitAt? split
  exact ⟨front, rfl⟩

theorem lasting_upTo {mark : String} (filled : mark.toList ≠ []) : Lasting stop (upTo mark) where
  suffix taken := by
    obtain ⟨front, rfl⟩ := eq_append_of_upTo taken
    exact (List.suffix_append _ _).trans (List.suffix_append _ _)
  lasts _ _ := upTo_append filled

theorem closing_upTo {mark : String} (closed : stop ∈ mark.toList) : Closing stop (upTo mark) where
  suffix taken := by
    obtain ⟨front, rfl⟩ := eq_append_of_upTo taken
    exact (List.suffix_append _ _).trans (List.suffix_append _ _)
  takes taken := by
    obtain ⟨front, rfl⟩ := eq_append_of_upTo taken
    exact List.mem_append_right _ (List.mem_append_left _ closed)
  lasts _ := upTo_append (List.ne_nil_of_mem closed)

instance : Lasting stop (upTo "\"") := lasting_upTo (by decide)

instance : Lasting stop (upTo "'") := lasting_upTo (by decide)

instance : Lasting stop (upTo "--") := lasting_upTo (by decide)

instance : Closing '>' (upTo "?>") := closing_upTo (by decide)

instance : Closing '>' (upTo "]]>") := closing_upTo (by decide)

instance : Closing ';' (upTo ";") := closing_upTo (by decide)

instance (mark : String) [Mark mark] [Stop stop] : Lasting stop (at? mark) where
  suffix taken := by
    cases taken
    exact List.suffix_rfl
  lasts {text record value left later} more kept := by
    have unfolded : ∀ text : List Char,
        at? mark text record = some (((dropExact? mark.toList text).isSome, text), record) := fun _ => rfl
    rw [unfolded, unfolded]
    constructor
    · intro taken
      simp only [Option.some_inj, Prod.mk.injEq, List.append_left_inj] at taken ⊢
      obtain ⟨⟨rfl, rfl⟩, rfl⟩ := taken
      exact ⟨⟨(isSome_dropExact?_append mark kept more).symm, rfl⟩, rfl⟩
    · intro taken
      cases taken
      rw [isSome_dropExact?_append mark kept]

theorem taken_of_some {mark : String} {text left : List Char} {record : Record}
    (dropped : dropExact? mark.toList text = some left) :
    taken mark text record = some ((true, left), record) := by
  rw [taken_run, dropped]

theorem taken_of_none {mark : String} {text : List Char} {record : Record}
    (dropped : dropExact? mark.toList text = none) :
    taken mark text record = some ((false, text), record) := by
  rw [taken_run, dropped]

instance (mark : String) [Mark mark] [Stop stop] : Lasting stop (taken mark) where
  suffix {text record value left later} given := by
    cases dropped : dropExact? mark.toList text with
    | some rest =>
        cases (taken_of_some dropped).symm.trans given
        exact ⟨mark.toList, (dropExact?_eq_some_iff.1 dropped).symm⟩
    | none =>
        cases (taken_of_none dropped).symm.trans given
        exact List.suffix_rfl
  lasts {text record value left later} more kept := by
    cases dropped : dropExact? mark.toList text with
    | some rest =>
        rw [taken_of_some dropped, taken_of_some (dropExact?_append.2 dropped)]
        simp only [Option.some_inj, Prod.mk.injEq, List.append_left_inj]
    | none =>
        rw [taken_of_none dropped]
        cases longer : dropExact? mark.toList (text ++ more) with
        | none =>
            rw [taken_of_none longer]
            simp only [Option.some_inj, Prod.mk.injEq, List.append_left_inj]
        | some rest =>
            rw [taken_of_some longer]
            refine iff_of_false (fun given => ?_) fun given => ?_
            · cases given
              rw [dropExact?_append.1 longer] at dropped
              cases dropped
            · cases given
              have same := isSome_dropExact?_append mark kept more
              rw [longer, dropped] at same
              cases same

/-- A test for a mark closes where nothing is looked at behind the mark and the rest closes without it. -/
theorem closing_taken {mark : String} [Mark mark] [Stop stop] (closed : stop ∈ mark.toList)
    {onward : Bool → Scan α} (found : Idle (onward true)) (absent : Closing stop (onward false)) :
    Closing stop (taken mark >>= onward) where
  suffix {text record value left later} given := by
    cases dropped : dropExact? mark.toList text with
    | some rest =>
        rw [bind_run (taken_of_some dropped)] at given
        obtain rfl := Idle.left_eq given
        exact ⟨mark.toList, (dropExact?_eq_some_iff.1 dropped).symm⟩
    | none =>
        rw [bind_run (taken_of_none dropped)] at given
        exact absent.suffix given
  takes {text record value left later} given := by
    cases dropped : dropExact? mark.toList text with
    | some rest =>
        rw [dropExact?_eq_some_iff.1 dropped]
        exact List.mem_append_left _ closed
    | none =>
        rw [bind_run (taken_of_none dropped)] at given
        exact absent.takes given
  lasts {text record value left later} more := by
    cases dropped : dropExact? mark.toList text with
    | some rest =>
        rw [bind_run (taken_of_some dropped), bind_run (taken_of_some (dropExact?_append.2 dropped))]
        exact Idle.lasts more
    | none =>
        rw [bind_run (taken_of_none dropped)]
        cases longer : dropExact? mark.toList (text ++ more) with
        | none =>
            rw [bind_run (taken_of_none longer)]
            exact absent.lasts more
        | some rest =>
            rw [bind_run (taken_of_some longer)]
            refine iff_of_false (fun given => ?_) fun given => ?_
            · obtain rfl := Idle.left_eq given
              rw [dropExact?_append.1 longer] at dropped
              cases dropped
            · have same := isSome_dropExact?_append mark (absent.takes given) more
              rw [longer, dropped] at same
              cases same

instance : Lasting stop next? where
  suffix taken := by
    cases taken
    exact List.suffix_rfl
  lasts {text record value left later} more kept := by
    have unfolded : ∀ text : List Char, next? text record = some ((text.head?, text), record) := fun _ => rfl
    have front : left ≠ [] := List.ne_nil_of_mem kept
    rw [unfolded, unfolded]
    simp only [Option.some_inj, Prod.mk.injEq, List.append_left_inj]
    refine and_congr_left fun _ => and_congr_left ?_
    rintro rfl
    obtain ⟨first, rest, rfl⟩ := List.exists_cons_of_ne_nil front
    rw [List.cons_append, List.head?_cons, List.head?_cons]

/-- Whether characters are accepted that are not a stop. -/
class Passes (accept : Char → Bool) (stop : Char) : Prop where
  stops : accept stop = false

instance [closing : Stop stop] : Passes isSpace stop where
  stops := by rcases closing.closes with rfl | rfl <;> decide

instance [closing : Stop stop] : Passes isNamePart stop where
  stops := by rcases closing.closes with rfl | rfl <;> decide

instance (accept : Char → Bool) [Passes accept stop] : Lasting stop (takeWhile accept) where
  suffix {text record value left later} taken := by
    rw [takeWhile_run] at taken
    cases taken
    exact List.dropWhile_suffix accept
  lasts {text record value left later} more kept := by
    rw [takeWhile_run, takeWhile_run]
    simp only [Option.some_inj, Prod.mk.injEq]
    refine and_congr_left fun _ => ?_
    by_cases held : stop ∈ text
    · have stopped : accept stop = false := Passes.stops
      have whole : ¬(text.takeWhile accept).length = text.length := fun same => by
        have all := List.takeWhile_eq_self_iff.1 ((List.takeWhile_sublist accept).eq_of_length same)
        rw [all stop held] at stopped
        cases stopped
      have some : ¬(text.dropWhile accept).isEmpty = true := fun none => by
        rw [List.dropWhile_eq_nil_iff.1 (List.isEmpty_iff.1 none) stop held] at stopped
        cases stopped
      rw [List.takeWhile_append, List.dropWhile_append, if_neg whole, if_neg some, List.append_left_inj]
    · refine iff_of_false (fun taken => held ?_) fun taken => held ?_
      · have split := List.takeWhile_append_dropWhile (p := accept) (l := text ++ more)
        rw [taken.2, ← List.append_assoc, List.append_left_inj] at split
        rw [← split]
        exact List.mem_append_right _ kept
      · exact (List.dropWhile_suffix accept).subset (taken.2 ▸ kept)

instance [Stop stop] : Lasting stop someSpaceTaken :=
  inferInstanceAs (Lasting stop (takeWhile isSpace >>= fun blanks => pure !blanks.isEmpty))

theorem length_lt_of_someSpaceTaken {text left : List Char} {record later : Record}
    (spaced : someSpaceTaken text record = some ((true, left), later)) : left.length < text.length := by
  obtain ⟨blanks, rest, _, taken, given⟩ := bind_eq_some_iff.1 spaced
  rw [takeWhile_run] at taken
  cases taken
  have same : left = text.dropWhile isSpace := (congrArg (·.1.2) (Option.some.inj given)).symm
  have some : text.takeWhile isSpace ≠ [] := by
    intro none
    rw [none] at given
    cases given
  have split := congrArg List.length (List.takeWhile_append_dropWhile (p := isSpace) (l := text))
  have front := List.length_pos_iff.2 some
  rw [List.length_append] at split
  rw [same]
  omega

instance [Stop stop] : Lasting stop space := inferInstanceAs (Lasting stop (discard someSpaceTaken))

instance [Stop stop] : Lasting stop someSpace := by
  unfold someSpace
  infer_instance

instance [Stop stop] : Lasting stop name := by
  unfold name
  infer_instance

instance : Mark "\"" := ⟨by decide, by decide⟩

instance [Stop stop] : Lasting stop quoted := by
  unfold quoted
  infer_instance

/-! ## Repetition -/

section Repetition

variable {State : Type} {step : State → Scan (Option State)}

/-- Whether a step takes something, save where it tells the end. -/
class Advancing (step : State → Scan (Option State)) : Prop where
  advances : ∀ {state later text record left after},
    step state text record = some ((some later, left), after) → left.length < text.length

instance [∀ state, Lasting stop (step state)] (characters : List Char) (state : State) :
    Lasting stop (rounds step characters state) := by
  induction characters generalizing state with
  | nil =>
      refine Lasting.after fun told => ?_
      cases told with
      | none => exact inferInstanceAs (Lasting stop (pure state))
      | some later => exact inferInstanceAs (Lasting stop failure)
  | cons character characters ih =>
      refine Lasting.after fun told => ?_
      cases told with
      | none => exact inferInstanceAs (Lasting stop (pure state))
      | some later => exact ih later

theorem rounds_of_none {characters text left : List Char} {state : State} {record later : Record}
    (told : step state text record = some ((none, left), later)) :
    rounds step characters state text record = some ((state, left), later) := by
  cases characters <;> exact bind_run told

theorem rounds_of_some {character : Char} {characters text left : List Char} {state next : State}
    {record later : Record} (told : step state text record = some ((some next, left), later)) :
    rounds step (character :: characters) state text record =
      rounds step characters next left later :=
  bind_run told

/-- There may be a round for each of the characters left, which is enough. -/
theorem rounds_of_length_le [advancing : Advancing step] {characters others text : List Char}
    {state : State} {record : Record} {result : (State × List Char) × Record}
    (ran : rounds step characters state text record = some result)
    (enough : text.length ≤ others.length) : rounds step others state text record = some result := by
  induction characters generalizing others state text record with
  | nil =>
      obtain ⟨told, left, later, stepped, given⟩ := bind_eq_some_iff.1 ran
      cases told with
      | none => exact (rounds_of_none stepped).trans given
      | some next => cases given
  | cons character characters ih =>
      obtain ⟨told, left, later, stepped, given⟩ := bind_eq_some_iff.1 ran
      cases told with
      | none => exact (rounds_of_none stepped).trans given
      | some next =>
          have fewer := advancing.advances stepped
          obtain ⟨other, others, rfl⟩ := List.exists_cons_of_length_pos (by omega : 0 < others.length)
          rw [rounds_of_some stepped]
          exact ih given (Nat.le_of_lt_succ (Nat.lt_of_lt_of_le fewer enough))

theorem repeating_eq (state : State) (text : List Char) (record : Record) :
    repeating step state text record = rounds step text state text record := rfl

instance [∀ state, Lasting stop (step state)] [Advancing step] (state : State) :
    Lasting stop (repeating step state) where
  suffix {text _ _ _ _} taken :=
    (inferInstance : Lasting stop (rounds step text state)).suffix taken
  lasts {text record value left later} more kept := by
    have steady : ∀ characters, Lasting stop (rounds step characters state) := fun _ => inferInstance
    rw [repeating_eq, repeating_eq, (steady _).lasts more kept]
    have longer : text.length ≤ (text ++ more).length := by
      rw [List.length_append]
      exact Nat.le_add_right _ _
    exact ⟨fun ran => rounds_of_length_le ran (Nat.le_refl _), fun ran => rounds_of_length_le ran longer⟩

/-- What is taken for as long as a mark stands before it. -/
instance {mark : String} [Mark mark] {item : State → Scan State} [∀ state, Steady (item state)] :
    Advancing fun state => do if ← taken mark then some <$> item state else return none where
  advances stepped := by
    rcases length_lt_of_taken Mark.filled Steady.matching.shortens stepped with fewer | ⟨-, none⟩
    · exact fewer
    · cases none

end Repetition

instance {mark : String} [Mark mark] [Stop stop] {item : Scan Unit} [Steady item] [Lasting stop item] :
    Lasting stop (many (taken mark) item) := by
  unfold many
  infer_instance

end Scan

end WordStream.Markup

import Mathlib.Data.Option.Basic
import WordStream.Proofs.Markup.Scan

/-!
# Computations that match

Documents that differ in what stands before their text, or in how much of them has arrived, are read by
computations whose records differ in the size of the document and in the warnings. One matches another if all
that it gives is given by the other too, where the entities cost no more than is free in any document or the
other document is no smaller. Neither ever pays back, and no scan leaves more than it was given.
-/

set_option autoImplicit false

namespace WordStream.Markup

/-- Whether records differ at most in the size of the document, in warnings, and in what only a document that is
loaded notes. If more than is free may be spent, the size that is given has to stand between theirs. -/
structure Record.Alike (bound room : Nat) (record other : Record) : Prop where
  spent : other.spent = record.spent
  faults : other.faults = record.faults
  ample : bound ≤ Reader.freeCost ∨ record.size ≤ room ∧ room ≤ other.size

namespace Reader

variable {α β γ δ : Type}

/-- Whether what a reader gives is given by another one, changed in a way. -/
def Matches (reader : Reader α) (change : α → β) (other : Reader β) : Prop :=
  ∀ record value later, reader record = some (value, later) →
    record.spent ≤ later.spent ∧ later.size = record.size ∧
      ∀ bound room start, later.spent ≤ bound → record.Alike bound room start →
        ∃ last, other start = some (change value, last) ∧ later.Alike bound room last

/-- Whether a reader matches itself. -/
class Steady (reader : Reader α) : Prop where
  matching : reader.Matches id reader

theorem Matches.bind {first : Reader α} {other : Reader β} {change : α → β}
    {next : α → Reader γ} {onward : β → Reader δ} {changeNext : γ → δ}
    (firstMatches : first.Matches change other)
    (nextMatches : ∀ value, (next value).Matches changeNext (onward (change value))) :
    (first >>= next).Matches changeNext (other >>= onward) := by
  intro record value later read
  obtain ⟨middle, between, readFirst, readNext⟩ := bind_eq_some_iff.1 read
  obtain ⟨grown, kept, given⟩ := firstMatches record middle between readFirst
  obtain ⟨grownNext, keptNext, givenNext⟩ := nextMatches middle between value later readNext
  refine ⟨Nat.le_trans grown grownNext, keptNext.trans kept, fun bound room start few alike => ?_⟩
  obtain ⟨halfway, gave, alike⟩ := given bound room start (Nat.le_trans grownNext few) alike
  obtain ⟨last, gaveNext, alike⟩ := givenNext bound room halfway few alike
  exact ⟨last, (bind_run gave).trans gaveNext, alike⟩

/-- A reader that matches itself may stand before others. -/
theorem Matches.after {first : Reader α} [Steady first] {next : α → Reader γ}
    {onward : α → Reader δ} {change : γ → δ}
    (nextMatches : ∀ value, (next value).Matches change (onward value)) :
    (first >>= next).Matches change (first >>= onward) :=
  Steady.matching.bind nextMatches

theorem matches_pure (change : α → β) (value : α) :
    (pure value : Reader α).Matches change (pure (change value)) := by
  intro record given later read
  cases read
  exact ⟨Nat.le_refl _, rfl, fun _ _ start _ alike => ⟨start, rfl, alike⟩⟩

theorem matches_failure {change : α → β} {other : Reader β} :
    (failure : Reader α).Matches change other :=
  fun _ _ _ read => nomatch read

theorem Matches.ite {condition : Prop} [Decidable condition] {first second : Reader α}
    {other another : Reader β} {change : α → β} (whenTrue : first.Matches change other)
    (whenFalse : second.Matches change another) :
    (if condition then first else second).Matches change
      (if condition then other else another) := by
  split
  · exact whenTrue
  · exact whenFalse

instance (value : α) : Steady (pure value : Reader α) where
  matching := matches_pure id value

instance : Steady (failure : Reader α) where
  matching := matches_failure

instance {first : Reader α} {next : α → Reader β} [Steady first] [∀ value, Steady (next value)] :
    Steady (first >>= next) where
  matching := Steady.matching.bind fun _ => Steady.matching

instance {condition : Prop} [Decidable condition] {first second : Reader α} [Steady first]
    [Steady second] : Steady (if condition then first else second) where
  matching := Steady.matching.ite Steady.matching

/-- A condition may be replaced by one that follows from it. -/
theorem matches_guard {condition weaker : Prop} [Decidable condition] [Decidable weaker]
    (follows : condition → weaker) : (guard condition : Reader Unit).Matches id (guard weaker) := by
  unfold guard
  split
  · next holds =>
      rw [if_pos (follows holds)]
      exact matches_pure id ()
  · exact matches_failure

instance {condition : Prop} [Decidable condition] : Steady (guard condition : Reader Unit) where
  matching := matches_guard id

instance (found : Option α) : Steady (liftM found : Reader α) where
  matching := by
    intro record value later read
    cases found with
    | none => cases read
    | some value =>
        cases read
        exact ⟨Nat.le_refl _, rfl, fun _ _ start _ alike => ⟨start, rfl, alike⟩⟩

instance : Steady fault where
  matching := by
    intro record value later read
    cases read
    exact ⟨Nat.le_refl _, rfl, fun _ _ start _ alike =>
      ⟨_, rfl, { alike with faults := congrArg (· + 1) alike.faults }⟩⟩

instance : Steady warn where
  matching := by
    intro record value later read
    cases read
    exact ⟨Nat.le_refl _, rfl, fun _ _ start _ alike => ⟨_, rfl, { alike with }⟩⟩

instance (condition : Bool) : Steady (require condition) := by
  unfold require
  infer_instance

instance : Steady isFaulty where
  matching := by
    intro record value later read
    cases read
    refine ⟨Nat.le_refl _, rfl, fun _ _ start _ alike => ⟨start, ?_, alike⟩⟩
    have same : start.faulty = record.faulty := by rw [Record.faulty, Record.faulty, alike.faults]
    exact congrArg (fun faulty => some (faulty, start)) same

theorem matches_mapM {f : γ → Reader α} {g : γ → Reader α}
    (eachMatches : ∀ item, (f item).Matches id (g item)) (items : List γ) :
    (items.mapM f).Matches id (items.mapM g) := by
  induction items with
  | nil => exact matches_pure id []
  | cons item items ih =>
      rw [List.mapM_cons, List.mapM_cons]
      exact (eachMatches item).bind fun _ => ih.bind fun _ => Steady.matching

instance {f : α → Reader PUnit} [∀ item, Steady (f item)] (items : List α) :
    Steady (items.forM f) := by
  induction items with
  | nil => exact inferInstanceAs (Steady (pure ()))
  | cons item items ih => exact inferInstanceAs (Steady (f item >>= fun _ => items.forM f))

theorem pay_run (size : Nat) (record : Record) :
    pay size record =
      let spent := record.spent + size + useCost
      if spent ≤ freeCost || spent / 5 ≤ record.size then some ((), { record with spent })
      else none := by
  have unfolded : pay size record =
      (do
        let spent := record.spent + size + useCost
        guard (spent ≤ freeCost || spent / 5 ≤ record.size)
        set { record with spent } : Reader Unit) record := rfl
  rw [unfolded]
  dsimp only
  split
  · next paid => rw [guard, if_pos paid]; rfl
  · next unpaid => rw [guard, if_neg unpaid]; rfl

/-- What is free in a document is free in every other one, and what a document allows is allowed by a larger
one too. -/
instance (size : Nat) : Steady (pay size) where
  matching := by
    intro record value later read
    rw [pay_run] at read
    dsimp only at read
    split at read
    · next paid =>
        cases read
        refine ⟨by simp only [Nat.add_assoc, Nat.le_add_right], rfl, fun _ _ start few alike => ?_⟩
        rw [pay_run, alike.spent]
        refine ⟨_, if_pos ?_, { alike with spent := rfl }⟩
        simp only [Bool.or_eq_true, decide_eq_true_iff] at paid ⊢
        rcases alike.ample with free | ⟨within, enough⟩
        · exact .inl (Nat.le_trans few free)
        · exact paid.imp_right fun small => Nat.le_trans small (Nat.le_trans within enough)
    · cases read

end Reader

namespace Scan

variable {α β γ δ : Type}

/-- Whether what a scan gives is given by another one, changed in a way, with the same characters left. -/
structure Matches (scan : Scan α) (change : α → β) (other : Scan β) : Prop where
  along : ∀ text, (scan text).Matches (Prod.map change id) (other text)
  shortens : ∀ {text record value left later}, scan text record = some ((value, left), later) →
    left.length ≤ text.length

/-- Whether a scan matches itself. -/
class Steady (scan : Scan α) : Prop where
  matching : scan.Matches id scan

theorem Matches.bind {first : Scan α} {other : Scan β} {change : α → β} {next : α → Scan γ}
    {onward : β → Scan δ} {changeNext : γ → δ} (firstMatches : first.Matches change other)
    (nextMatches : ∀ value, (next value).Matches changeNext (onward (change value))) :
    (first >>= next).Matches changeNext (other >>= onward) where
  along text := by
    change (first text >>= fun result => next result.1 result.2).Matches _
      (other text >>= fun result => onward result.1 result.2)
    exact (firstMatches.along text).bind fun result => (nextMatches result.1).along result.2
  shortens taken := by
    obtain ⟨value, left, later, takenFirst, takenNext⟩ := bind_eq_some_iff.1 taken
    exact Nat.le_trans ((nextMatches value).shortens takenNext) (firstMatches.shortens takenFirst)

/-- A scan that matches itself may stand before others. -/
theorem Matches.after {first : Scan α} [Steady first] {next : α → Scan γ} {onward : α → Scan δ}
    {change : γ → δ} (nextMatches : ∀ value, (next value).Matches change (onward value)) :
    (first >>= next).Matches change (first >>= onward) :=
  Steady.matching.bind nextMatches

theorem matches_pure (change : α → β) (value : α) :
    (pure value : Scan α).Matches change (pure (change value)) where
  along text := Reader.matches_pure (Prod.map change id) (value, text)
  shortens taken := by
    cases taken
    exact Nat.le_refl _

theorem Matches.map_some {scan : Scan α} {other : Scan β} {change : α → β}
    (scanMatches : scan.Matches change other) :
    (some <$> scan).Matches (Option.map change) (some <$> other) := by
  rw [map_eq_bind, map_eq_bind]
  exact scanMatches.bind fun value => matches_pure (Option.map change) (some value)

theorem matches_failure {change : α → β} {other : Scan β} :
    (failure : Scan α).Matches change other where
  along _ := Reader.matches_failure
  shortens taken := nomatch taken

theorem matches_liftM {reader : Reader α} {other : Reader β} {change : α → β}
    (readerMatches : reader.Matches change other) :
    (liftM reader : Scan α).Matches change (liftM other) where
  along text := by
    change (reader >>= fun value => pure (value, text)).Matches _
      (other >>= fun value => pure (value, text))
    exact readerMatches.bind fun value => Reader.matches_pure (Prod.map change id) (value, text)
  shortens taken := by
    rw [liftM_run] at taken
    obtain ⟨result, -, same⟩ := Option.map_eq_some_iff.1 taken
    cases same
    exact Nat.le_refl _

theorem Matches.ite {condition : Prop} [Decidable condition] {first second : Scan α}
    {other another : Scan β} {change : α → β} (whenTrue : first.Matches change other)
    (whenFalse : second.Matches change another) :
    (if condition then first else second).Matches change
      (if condition then other else another) := by
  split
  · exact whenTrue
  · exact whenFalse

instance (value : α) : Steady (pure value : Scan α) where
  matching := matches_pure id value

instance : Steady (failure : Scan α) where
  matching := matches_failure

instance {reader : Reader α} [Reader.Steady reader] : Steady (liftM reader : Scan α) where
  matching := matches_liftM Reader.Steady.matching

instance (found : Option α) : Steady (liftM found : Scan α) :=
  inferInstanceAs (Steady (liftM (liftM found : Reader α)))

instance {first : Scan α} {next : α → Scan β} [Steady first] [∀ value, Steady (next value)] :
    Steady (first >>= next) where
  matching := Steady.matching.bind fun _ => Steady.matching

instance {condition : Prop} [Decidable condition] {first second : Scan α} [Steady first]
    [Steady second] : Steady (if condition then first else second) where
  matching := Steady.matching.ite Steady.matching

/-- A scan that matches itself may stand before others in some cases only. -/
theorem Matches.when {condition : Prop} [Decidable condition] {first : Scan Unit} [Steady first]
    {next : Unit → Scan γ} {onward : Unit → Scan δ} {change : γ → δ}
    (nextMatches : ∀ value, (next value).Matches change (onward value)) :
    (if condition then first >>= next else next ()).Matches change
      (if condition then first >>= onward else onward ()) :=
  Matches.ite (Matches.after nextMatches) (nextMatches ())

theorem Steady.after {first : Scan α} [Steady first] {next : α → Scan β}
    (nextSteady : ∀ value, Steady (next value)) : Steady (first >>= next) :=
  inferInstance

theorem Steady.ite {condition : Prop} [Decidable condition] {first second : Scan α}
    (whenTrue : Steady first) (whenFalse : Steady second) :
    Steady (if condition then first else second) :=
  inferInstance

instance {condition : Prop} [Decidable condition] : Steady (guard condition : Scan Unit) := by
  unfold guard
  infer_instance

instance {scan : Scan α} {change : α → β} [Steady scan] : Steady (change <$> scan) :=
  inferInstanceAs (Steady (scan >>= fun value => pure (change value)))

instance {scan : Scan α} [Steady scan] : Steady (discard scan) :=
  inferInstanceAs (Steady (scan >>= fun _ => pure ()))

/-! ## What takes characters -/

/-- A scan that leaves the record alone matches itself if it takes from the front. -/
theorem Steady.of_run {scan : Scan α} (take : List Char → Option (α × List Char))
    (runs : ∀ text record, scan text record = (take text).map fun result => (result, record))
    (shortens : ∀ text value left, take text = some (value, left) → left.length ≤ text.length) :
    Steady scan where
  matching :=
    { along := fun text record result later read => by
        rw [runs] at read
        obtain ⟨found, took, same⟩ := Option.map_eq_some_iff.1 read
        cases same
        refine ⟨Nat.le_refl _, rfl, fun _ _ start _ alike => ⟨start, ?_, alike⟩⟩
        rw [runs, took]
        rfl
      shortens := fun {text} _ value left _ taken => by
        rw [runs] at taken
        obtain ⟨found, took, same⟩ := Option.map_eq_some_iff.1 taken
        cases same
        exact shortens text value left took }

instance : Steady rest :=
  .of_run (fun text => some (text, text)) (fun _ _ => rfl) fun _ _ _ took => by
    cases took
    exact Nat.le_refl _

instance : Steady next? :=
  inferInstanceAs (Steady (rest >>= fun text => pure text.head?))

instance (mark : String) : Steady (at? mark) :=
  inferInstanceAs (Steady (rest >>= fun text => pure (dropExact? mark.toList text).isSome))

theorem length_le_of_dropExact? {mark text left : List Char}
    (dropped : dropExact? mark text = some left) : left.length ≤ text.length := by
  rw [dropExact?_eq_some_iff.1 dropped, List.length_append]
  exact Nat.le_add_left _ _

instance (mark : String) : Steady (exact mark) :=
  .of_run (fun text => (dropExact? mark.toList text).map fun left => ((), left))
    (fun text record => by rw [exact_run, Option.map_map]; rfl)
    fun text _ _ took => by
      obtain ⟨left, dropped, same⟩ := Option.map_eq_some_iff.1 took
      cases same
      exact length_le_of_dropExact? dropped

instance (mark : String) : Steady (taken mark) :=
  .of_run (fun text => some (takenFrom mark.toList text)) (fun _ _ => taken_eq mark)
    fun text _ _ took => by
      cases dropped : dropExact? mark.toList text with
      | some left =>
          rw [takenFrom, dropped] at took
          cases took
          exact length_le_of_dropExact? dropped
      | none =>
          rw [takenFrom, dropped] at took
          cases took
          exact Nat.le_refl _

instance (accept : Char → Bool) : Steady (takeWhile accept) :=
  .of_run (fun text => some (text.takeWhile accept, text.dropWhile accept)) (fun _ _ => takeWhile_run accept)
    fun text _ _ took => by
      cases took
      exact (List.dropWhile_sublist accept).length_le

instance (mark : String) : Steady (upTo mark) :=
  .of_run (splitAt? mark.toList []) (fun text record => upTo_run mark)
    fun text _ _ took => by
      obtain ⟨front, -, rfl⟩ := eq_append_of_splitAt? took
      rw [List.length_append, List.length_append]
      omega

instance : Steady someSpaceTaken :=
  inferInstanceAs (Steady (takeWhile isSpace >>= fun blanks => pure !blanks.isEmpty))

instance : Steady space := inferInstanceAs (Steady (discard someSpaceTaken))

instance : Steady someSpace := by
  unfold someSpace
  infer_instance

instance : Steady name := by
  unfold name
  infer_instance

instance : Steady quoted := by
  unfold quoted
  infer_instance

/-- A scan takes something if it takes a mark first. -/
theorem length_lt_of_exact {mark : String} (filled : mark.toList ≠ []) {next : Unit → Scan α}
    (shortens : ∀ {text record value left later},
      next () text record = some ((value, left), later) → left.length ≤ text.length)
    {text left : List Char} {record later : Record} {value : α}
    (taken : (exact mark >>= next) text record = some ((value, left), later)) :
    left.length < text.length := by
  obtain ⟨_, rest, _, opened, taken⟩ := bind_eq_some_iff.1 taken
  rw [exact_eq_some opened, List.length_append]
  have marked := List.length_pos_iff.2 filled
  have fewer := shortens taken
  omega

/-- A scan takes something if it takes a mark first, and leaves the text to another one if it does not. -/
theorem length_lt_of_taken {mark : String} (filled : mark.toList ≠ []) {first second : Scan α}
    (shortens : ∀ {text record value left later},
      first text record = some ((value, left), later) → left.length ≤ text.length)
    {text left : List Char} {record later : Record} {value : α}
    (ran : (taken mark >>= fun found => if found = true then first else second) text record =
      some ((value, left), later)) :
    left.length < text.length ∨
      dropExact? mark.toList text = none ∧ second text record = some ((value, left), later) := by
  obtain ⟨found, rest, _, taken, ran⟩ := bind_eq_some_iff.1 ran
  rw [taken_run] at taken
  split at taken
  · next dropped =>
      cases taken
      have marked := List.length_pos_iff.2 filled
      have fewer := shortens ran
      rw [dropExact?_eq_some_iff.1 dropped, List.length_append]
      omega
  · next absent =>
      cases taken
      exact .inr ⟨absent, ran⟩

/-! ## Repetition -/

theorem Matches.rounds {State Other : Type} {step : State → Scan (Option State)}
    {onward : Other → Scan (Option Other)} {change : State → Other}
    (stepMatches : ∀ state, (step state).Matches (Option.map change) (onward (change state)))
    (characters : List Char) (state : State) :
    (rounds step characters state).Matches change (rounds onward characters (change state)) := by
  induction characters generalizing state with
  | nil =>
      refine (stepMatches state).bind fun told => ?_
      cases told with
      | none => exact matches_pure change state
      | some later => exact matches_failure
  | cons character characters ih =>
      refine (stepMatches state).bind fun told => ?_
      cases told with
      | none => exact matches_pure change state
      | some later => exact ih later

theorem Matches.repeating {State Other : Type} {step : State → Scan (Option State)}
    {onward : Other → Scan (Option Other)} {change : State → Other}
    (stepMatches : ∀ state, (step state).Matches (Option.map change) (onward (change state)))
    (state : State) :
    (repeating step state).Matches change (repeating onward (change state)) :=
  Matches.after fun characters => Matches.rounds stepMatches characters state

instance {State : Type} {step : State → Scan (Option State)} [∀ state, Steady (step state)]
    (state : State) : Steady (repeating step state) where
  matching := Matches.repeating (fun _ => Option.map_id ▸ Steady.matching) state

instance {follows : Scan Bool} {item : Scan Unit} [Steady follows] [Steady item] :
    Steady (many follows item) := by
  unfold many
  infer_instance

end Scan

end WordStream.Markup

import WordStream.Proofs.Markup.Underway

/-!
# Documents read to their end

Once all text of a document has arrived, each step takes something off it, until the document is over or is
refused. A stream comes to the end of a document if another one does that holds the same text and need not stand
alone.
-/

set_option autoImplicit false

namespace WordStream.Markup

namespace Stream

variable {stream other later last : Stream} {bound room : Nat}

/-! ## Streams with one text -/

/-- Whether a stream holds what another one does, and has told and noted the same. It need not stand alone. -/
structure Along (bound room : Nat) (stream other : Stream) : Prop where
  opened : stream.stage ≠ .opening
  stage : other.stage = stream.stage
  text : other.text = stream.text
  declarations : other.declarations = stream.declarations.relaxed
  progress : other.progress = stream.progress
  alike : stream.record.Alike bound room other.record

/-- Whether what one stream reads next of the last of a text is read by the other one too, if anything is. -/
structure Follows (bound room : Nat) (stream : Stream) (read others : Option (Option Stream)) : Prop where
  waits : read = some none → others = some none
  shorter : ∀ {later}, read = some (some later) → later.text.length < stream.text.length
  dearer : ∀ {later}, read = some (some later) → stream.record.spent ≤ later.record.spent
  size : ∀ {later}, read = some (some later) → later.record.size = stream.record.size
  along : ∀ {later}, read = some (some later) → later.record.spent ≤ bound →
    ∃ last, others = some (some last) ∧ later.Along bound room last

theorem follows_none {others : Option (Option Stream)} : Follows bound room stream none others where
  waits := nofun
  shorter := nofun
  dearer := nofun
  size := nofun
  along := nofun

theorem follows_waiting : Follows bound room stream (some none) (some none) where
  waits _ := rfl
  shorter := nofun
  dearer := nofun
  size := nofun
  along := nofun

theorem follows_some (shorter : later.text.length < stream.text.length)
    (unchanged : later.record = stream.record) (along : later.Along bound room last) :
    Follows bound room stream (some (some later)) (some (some last)) where
  waits := nofun
  shorter := by
    rintro _ ⟨⟩
    exact shorter
  dearer := by
    rintro _ ⟨⟩
    exact Nat.le_of_eq (congrArg Record.spent unchanged.symm)
  size := by
    rintro _ ⟨⟩
    exact congrArg Record.size unchanged
  along := by
    rintro _ ⟨⟩ -
    exact ⟨last, rfl, along⟩

theorem Follows.ite {condition : Prop} [Decidable condition] {first second : Option (Option Stream)}
    {third fourth : Option (Option Stream)}
    (whenTrue : condition → Follows bound room stream first third)
    (whenFalse : ¬condition → Follows bound room stream second fourth) :
    Follows bound room stream (if condition then first else second)
      (if condition then third else fourth) := by
  split
  · next holds => exact whenTrue holds
  · next fails => exact whenFalse fails

/-- A scan is followed by one that it matches, with what is noted of it. -/
theorem Along.run {α β : Type} {scan : Scan α} {onward : Scan β} {change : α → β}
    (along : stream.Along bound room other) (note : Stream → α → Stream)
    (noteToo : Stream → β → Stream) (scanMatches : scan.Matches change onward)
    (shorter : ∀ {value left record}, scan stream.text stream.record = some ((value, left), record) →
      left.length < stream.text.length)
    (text : ∀ value later, (note later value).text = later.text)
    (record : ∀ value later, (note later value).record = later.record)
    (noted : ∀ {value later last}, later.Along bound room last →
      (note later value).Along bound room (noteToo last (change value))) :
    Follows bound room stream
      ((stream.run scan).map fun found => some (note found.2 found.1))
      ((other.run onward).map fun found => some (noteToo found.2 found.1)) := by
  have scanned : ∀ {later}, ((stream.run scan).map fun found => some (note found.2 found.1)) =
      some (some later) → ∃ value left after,
        scan stream.text stream.record = some ((value, left), after) ∧
          later = note { stream with text := left, record := after } value := by
    intro later read
    obtain ⟨⟨value, between⟩, ran, same⟩ := Option.map_eq_some_iff.1 read
    cases same
    obtain ⟨left, after, taken, rfl⟩ := run_eq_some_iff.1 ran
    exact ⟨value, left, after, taken, rfl⟩
  constructor
  case waits =>
    intro read
    obtain ⟨_, -, same⟩ := Option.map_eq_some_iff.1 read
    cases same
  case shorter =>
    intro later read
    obtain ⟨value, left, after, taken, rfl⟩ := scanned read
    rw [text]
    exact shorter taken
  case dearer =>
    intro later read
    obtain ⟨value, left, after, taken, rfl⟩ := scanned read
    rw [record]
    exact (scanMatches.along _ _ _ _ taken).1
  case size =>
    intro later read
    obtain ⟨value, left, after, taken, rfl⟩ := scanned read
    rw [record]
    exact (scanMatches.along _ _ _ _ taken).2.1
  case along =>
    intro later read few
    obtain ⟨value, left, after, taken, rfl⟩ := scanned read
    rw [record] at few
    obtain ⟨last, given, alike⟩ := (scanMatches.along _ _ _ _ taken).2.2 _ _ _ few along.alike
    rw [← along.text] at given
    have ran : other.run onward = some (change value, { other with text := left, record := last }) :=
      run_eq_some_iff.2 ⟨left, last, given, rfl⟩
    have beside : Along bound room { stream with text := left, record := after }
        { other with text := left, record := last } := { along with text := rfl, alike }
    exact ⟨_, by rw [ran]; rfl, noted beside⟩

section Steps

variable (along : stream.Along bound room other)

include along

theorem Along.setting : other.setting = stream.setting.relaxed := by
  unfold Stream.setting
  rw [along.declarations]
  rfl

theorem Along.skip {front : String} (filled : front.toList ≠ []) (mark : String) (body : Scan Unit)
    [Scan.Steady body] :
    Follows bound room stream (stream.skip true front mark body) (other.skip true front mark body) := by
  rw [Stream.skip, Stream.skip, along.text]
  refine Follows.ite (fun _ => ?_) fun _ => follows_waiting
  exact along.run (fun later _ => later) (fun last _ => last) Scan.Steady.matching
    (Scan.length_lt_of_exact filled Scan.Steady.matching.shortens) (fun _ _ => rfl) (fun _ _ => rfl)
    fun alike => alike

theorem Along.advance {scan onward : Progress → Scan Progress}
    (scanMatches : (scan stream.progress).Matches id (onward stream.progress))
    (shorter : ∀ {value left record},
      scan stream.progress stream.text stream.record = some ((value, left), record) →
        left.length < stream.text.length) :
    Follows bound room stream (some <$> stream.advance scan) (some <$> other.advance onward) := by
  rw [some_advance, some_advance, along.progress]
  refine along.run reach reach scanMatches shorter (fun _ _ => rfl) (fun _ _ => rfl) fun alike => ?_
  exact { alike with
    opened := by dsimp only [reach]; split <;> decide
    stage := rfl
    progress := rfl }

theorem Along.startTag :
    Follows bound room stream (stream.startTag true) (other.startTag true) := by
  unfold Stream.startTag
  rw [along.text, along.setting]
  have tagMatches := Content.startTag_matches (rfl : stream.setting.mode = .streaming) stream.progress
  split
  · refine Follows.ite (fun _ => along.advance ?_ ?_) fun _ => follows_waiting
    · exact Scan.Matches.after fun _ => tagMatches
    · exact Scan.length_lt_of_exact (by decide) tagMatches.shortens
  · exact follows_none

theorem Along.enter {declared : Declarations × Bool} :
    (stream.enter declared).Along bound room (other.enter (declared.1.relaxed, declared.2)) :=
  { along with
    opened := by dsimp only [Stream.enter]; split <;> decide
    stage := rfl
    declarations := rfl }

theorem Along.doctype :
    Follows bound room stream (stream.doctype true) (other.doctype true) := by
  have headMatches := Doctype.head_matches stream.declarations
  rw [doctype_eq, doctype_eq, along.text, along.declarations]
  refine Follows.ite (fun _ => ?_) fun _ => follows_waiting
  exact along.run Stream.enter Stream.enter (Scan.Matches.after fun _ => headMatches)
    (Scan.length_lt_of_exact (by decide) headMatches.shortens) (fun _ _ => rfl) (fun _ _ => rfl)
    fun alike => alike.enter

theorem Along.subset :
    Follows bound room stream (stream.subset true) (other.subset true) := by
  have subsetMatches := Doctype.subset_matches stream.declarations
  rw [subset_eq, subset_eq, along.text, along.declarations]
  refine Follows.ite (fun _ => ?_) fun _ => follows_waiting
  exact along.run (fun later declared => later.enter (declared, false))
    (fun last declared => last.enter (declared, false)) subsetMatches (Doctype.length_lt_of_subset _)
    (fun _ _ => rfl) (fun _ _ => rfl) fun alike => alike.enter

theorem Along.outside :
    Follows bound room stream (stream.outside true) (other.outside true) := by
  have faulty : other.record.faulty = stream.record.faulty := by
    rw [Record.faulty, Record.faulty, along.alike.faults]
  unfold Stream.outside
  dsimp only
  rw [along.text, along.stage, faulty]
  refine Follows.ite (fun blank => ?_) fun _ => Follows.ite (fun _ => follows_waiting) fun filled => ?_
  · refine follows_some ?_ rfl { along with stage := rfl, text := rfl }
    dsimp only
    cases text : stream.text with
    | nil =>
        rw [text] at blank
        cases blank
    | cons first rest =>
        rw [text] at blank
        have space : isSpace first = true := blank
        rw [List.dropWhile_cons_of_pos space]
        exact Nat.lt_succ_of_le (List.dropWhile_sublist isSpace).length_le
  refine Follows.ite (fun _ => along.skip (by decide) _ _) fun _ => ?_
  refine Follows.ite (fun _ => along.skip (by decide) _ _) fun _ => ?_
  refine Follows.ite (fun _ => Follows.ite (fun _ => ?_) fun _ => follows_none) fun _ => ?_
  · refine follows_some ?_ rfl { along with opened := nofun, stage := rfl, text := rfl }
    refine List.length_pos_iff.2 fun empty => filled ?_
    rw [empty]
    rfl
  refine Follows.ite (fun _ => follows_waiting) fun _ => ?_
  exact Follows.ite (fun _ => along.doctype) fun _ => along.startTag

theorem Along.part (front : Nat) (mark : String) :
    Follows bound room stream (stream.part true front mark) (other.part true front mark) := by
  have nextMatches := Content.nextPart_matches (rfl : stream.setting.mode = .streaming) stream.progress
  unfold Stream.part
  rw [along.text, along.setting]
  refine Follows.ite (fun _ => along.advance ?_ ?_) fun _ => follows_waiting
  · refine nextMatches.bind fun told => ?_
    cases told with
    | some later => exact Scan.matches_pure id later
    | none => exact Scan.matches_failure
  · intro value left record taken
    obtain ⟨told, rest, between, taken, given⟩ := Scan.bind_eq_some_iff.1 taken
    cases told with
    | some later =>
        cases given
        exact Content.length_lt_of_part (Content.expand_matches _) rfl taken
    | none => cases given

theorem Along.stretch (filled : ¬stream.text.isEmpty = true)
    (noTag : Scan.dropExact? "<".toList stream.text = none)
    (noReference : Scan.dropExact? "&".toList stream.text = none) :
    Follows bound room stream (stream.stretch true) (other.stretch true) := by
  unfold Stream.stretch
  rw [along.text]
  refine Follows.ite (fun come => along.advance Scan.Steady.matching ?_) fun unarrived => absurd rfl unarrived
  exact fun taken => Content.length_lt_of_stretch taken filled noTag noReference (.inl rfl)

theorem Along.content :
    Follows bound room stream (stream.content true) (other.content true) := by
  unfold Stream.content
  dsimp only
  rw [along.text]
  refine Follows.ite (fun _ => follows_waiting) fun filled => ?_
  refine Follows.ite (fun _ => along.skip (by decide) _ _) fun _ => ?_
  refine Follows.ite (fun _ => along.skip (by decide) _ _) fun _ => ?_
  refine Follows.ite (fun _ => along.part _ _) fun _ => ?_
  refine Follows.ite (fun _ => along.part _ _) fun _ => ?_
  refine Follows.ite (fun _ => along.startTag) fun noTag => ?_
  refine Follows.ite (fun _ => along.part _ _) fun noReference => ?_
  refine along.stretch (fun empty => filled ?_) ?_ ?_
  · rw [empty]
    rfl
  · exact Scan.dropExact?_eq_none_iff.2 noTag
  · exact Scan.dropExact?_eq_none_iff.2 noReference

/-- What a stream reads next is read by a stream along it, and is taken off the text. -/
theorem Along.step : Follows bound room stream (stream.step true) (other.step true) := by
  unfold Stream.step
  rw [along.stage, along.text]
  cases stage : stream.stage with
  | opening => exact absurd stage along.opened
  | prolog | beforeRoot | epilog => exact along.outside
  | subset => exact Follows.ite (fun _ => follows_waiting) fun _ => along.subset
  | content => exact along.content
  | done => exact follows_waiting

end Steps

/-- A stream is along with itself where it need not stand alone. -/
theorem follows_relaxed (opened : stream.stage ≠ .opening) :
    Follows 0 0 stream (stream.step true)
      (step true { stream with declarations := stream.declarations.relaxed }) :=
  Along.step
    { opened
      stage := rfl
      text := rfl
      declarations := rfl
      progress := rfl
      alike := { spent := rfl, faults := rfl, ample := .inl (Nat.zero_le _) } }

/-! ## The end of a document -/

/-- Whether a document may end with what has been read. -/
def IsOver (stream : Stream) : Prop :=
  stream.stage = .epilog ∨ stream.stage = .done

/-- Whether a stream of which all text has arrived is read to the end of the document, and comes to a last
stream by that. -/
inductive Ends : Stream → Stream → Prop where
  | finished {stream : Stream} : stream.step true = some none → stream.IsOver → Ends stream stream
  | onward {stream later last : Stream} :
      stream.step true = some (some later) → Ends later last → Ends stream last

theorem Ends.eq {another : Stream} (ends : stream.Ends last) (endsToo : stream.Ends another) :
    last = another := by
  induction ends with
  | finished waits isOver =>
      cases endsToo with
      | finished => rfl
      | onward read => cases waits.symm.trans read
  | onward read _ ih =>
      cases endsToo with
      | finished waits => cases waits.symm.trans read
      | onward readToo ends =>
          cases read.symm.trans readToo
          exact ih ends

theorem Ends.of_step (read : stream.step true = some (some later)) (ends : stream.Ends last) :
    later.Ends last := by
  cases ends with
  | finished waits => cases waits.symm.trans read
  | onward readToo ends =>
      cases read.symm.trans readToo
      exact ends

theorem Ends.spent_le (ends : stream.Ends last) (underway : stream.Underway) :
    stream.record.spent ≤ last.record.spent := by
  induction ends with
  | finished => exact Nat.le_refl _
  | onward read _ ih =>
      exact Nat.le_trans ((follows_relaxed underway.opened).dearer read) (ih (underway.step true _ read))

/-- A document ends for a stream along with another one, for which it ends. -/
theorem Along.ends (along : stream.Along bound room other) (underway : stream.Underway)
    (ends : stream.Ends last) (few : last.record.spent ≤ bound) : ∃ finish, other.Ends finish ∧ last.Along bound room finish := by
  induction ends generalizing other with
  | finished waits isOver =>
      exact ⟨other, .finished (along.step.waits waits) (by rw [IsOver, along.stage]; exact isOver), along⟩
  | onward read ends ih =>
      have underway := underway.step true _ read
      obtain ⟨next, readToo, along⟩ :=
        along.step.along read (Nat.le_trans (ends.spent_le underway) few)
      obtain ⟨last, ends, along⟩ := ih along underway few
      exact ⟨last, .onward readToo ends, along⟩

/-- As each step takes something off the text, there is room for all of them. -/
theorem ends_of_steps {count : Nat} (underway : stream.Underway)
    (enough : stream.text.length < count) (ran : stream.steps true count = some last)
    (isOver : last.IsOver) : stream.Ends last := by
  induction count generalizing stream with
  | zero => cases enough
  | succ count ih =>
      rw [Stream.steps] at ran
      obtain ⟨found, read, ran⟩ := Option.bind_eq_some_iff.1 ran
      cases found with
      | none =>
          cases ran
          exact .finished read isOver
      | some later =>
          have fewer := (follows_relaxed underway.opened).shorter read
          exact .onward read (ih (underway.step true _ read) (by omega) ran)

theorem Ends.steps {count : Nat} (ends : stream.Ends last) (underway : stream.Underway)
    (enough : stream.text.length < count) : stream.steps true count = some last ∧ last.IsOver := by
  induction ends generalizing count with
  | finished waits isOver =>
      obtain ⟨count, rfl⟩ := Nat.exists_eq_add_one.2 (Nat.zero_lt_of_lt enough)
      rw [Stream.steps, waits]
      exact ⟨rfl, isOver⟩
  | onward read ends ih =>
      obtain ⟨count, rfl⟩ := Nat.exists_eq_add_one.2 (Nat.zero_lt_of_lt enough)
      have fewer := (follows_relaxed underway.opened).shorter read
      rw [Stream.steps, read]
      exact ih (underway.step true _ read) (by omega)

theorem ends_iff_readOn (underway : stream.Underway) :
    stream.Ends last ↔ stream.readOn true = some last ∧ last.IsOver := by
  have enough : stream.text.length < stream.bytes.length + stream.text.length + 2 := by omega
  exact ⟨fun ends => ends.steps underway enough, fun ran => ends_of_steps underway enough ran.1 ran.2⟩

end Stream

end WordStream.Markup

import Mathlib.Data.List.TakeWhile
import WordStream.Markup.Stream
import WordStream.Proofs.Markup.Parts

/-!
# Streams that are underway

Each step of a stream is a scan of what has arrived, with a note of what it gives. Once the reading has begun,
content stands within elements, and their names hold no mark that ends a tag.
-/

set_option autoImplicit false

namespace WordStream.Markup

/-! ## The names of elements -/

namespace Scan

variable {α β : Type} {property : β → Prop}

/-- Whether whatever a scan gives has a property. -/
def Gives (scan : Scan α) (property : α → Prop) : Prop :=
  ∀ text record value left later, scan text record = some ((value, left), later) → property value

theorem gives_pure {value : β} (holds : property value) : (pure value : Scan β).Gives property := by
  rintro _ _ _ _ _ ⟨⟩
  exact holds

theorem gives_failure : (failure : Scan β).Gives property :=
  fun _ _ _ _ _ taken => nomatch taken

theorem Gives.bind {first : Scan α} {next : α → Scan β} {before : α → Prop}
    (firstGives : first.Gives before) (nextGives : ∀ value, before value → (next value).Gives property) :
    (first >>= next).Gives property := by
  intro text record value left later taken
  obtain ⟨middle, rest, between, takenFirst, takenNext⟩ := bind_eq_some_iff.1 taken
  exact nextGives middle (firstGives _ _ _ _ _ takenFirst) _ _ _ _ _ takenNext

theorem Gives.after {first : Scan α} {next : α → Scan β}
    (nextGives : ∀ value, (next value).Gives property) : (first >>= next).Gives property :=
  Gives.bind (fun _ _ _ _ _ _ => trivial : first.Gives fun _ => True) fun value _ => nextGives value

theorem Gives.ite {condition : Prop} [Decidable condition] {first second : Scan β}
    (whenTrue : first.Gives property) (whenFalse : second.Gives property) :
    (if condition then first else second).Gives property := by
  split
  · exact whenTrue
  · exact whenFalse

theorem Gives.map_some {scan : Scan β} (gives : scan.Gives property) :
    (some <$> scan).Gives fun told => ∀ value ∈ told, property value := by
  rw [map_eq_bind]
  refine gives.bind fun value holds => gives_pure ?_
  rintro _ ⟨⟩
  exact holds

end Scan

theorem toList_written (name : QualifiedName) :
    name.written.toList =
      if name.qualifier.isEmpty then name.localName.toList
      else name.qualifier.toList ++ ':' :: name.localName.toList := by
  unfold QualifiedName.written
  split
  · rfl
  · simp

/-- A name that is split is written as it was. -/
theorem toList_written_of_split? {characters : List Char} {name : QualifiedName}
    (split : QualifiedName.split? characters = some name) : name.written.toList = characters := by
  have parts := List.takeWhile_append_dropWhile (p := (· != ':')) (l := characters)
  have rest : characters.drop (characters.takeWhile (· != ':')).length = characters.dropWhile (· != ':') :=
    (congrArg (List.drop _) parts.symm).trans List.drop_left
  unfold QualifiedName.split? at split
  dsimp only at split
  rw [rest] at split
  rw [toList_written]
  split at split
  · next none =>
      split at split
      · cases split
        rw [none, List.append_nil] at parts
        have unqualified : ("" : String).isEmpty = true := by decide
        exact (if_pos unqualified).trans (String.toList_ofList.trans parts)
      · cases split
  · next colon back some =>
      split at split
      · next parted =>
          cases split
          have mark : colon = ':' := by
            have first := List.head?_dropWhile_not (· != ':') characters
            rw [some] at first
            simpa using first
          rw [Bool.and_eq_true, QualifiedName.isPart, Bool.and_eq_true, Bool.and_eq_true] at parted
          have filled : (characters.takeWhile (· != ':')) ≠ [] := by
            intro none
            rw [none] at parted
            exact absurd parted.1.1.1 (by decide)
          subst mark
          rw [if_neg, String.toList_ofList, String.toList_ofList, ← some, parts]
          simpa using filled
      · cases split

open Scan in
theorem gives_qualifiedName : qualifiedName.Gives fun name => '>' ∉ name.written.toList := by
  have plain : (Scan.takeWhile isNamePart).Gives fun characters => '>' ∉ characters := by
    intro text record value left later taken member
    rw [takeWhile_run] at taken
    cases taken
    exact absurd (List.all_eq_true.1 List.all_takeWhile _ member) (by decide)
  refine plain.bind fun characters plain => ?_
  cases split : QualifiedName.split? characters with
  | some name =>
      refine gives_pure ?_
      rw [toList_written_of_split? split]
      exact plain
  | none =>
      have broken : ∀ broken : Bool, '>' ∉ (QualifiedName.written
          ⟨"", String.ofList (if broken = true then characters ++ ['\r'] else characters)⟩).toList := by
        intro broken
        rw [toList_written]
        cases broken <;> simp [plain]
      refine Gives.after fun _ => Gives.after fun given => Gives.ite (Gives.after fun _ => ?_) ?_
      · exact Gives.after fun _ => Gives.after fun _ => Gives.after fun _ => gives_pure (broken given)
      · exact Gives.after fun _ => Gives.after fun _ => Gives.after fun _ => gives_pure (broken given)

namespace Content

/-- Whether no name of an element that is open holds a closing mark. -/
def Named (progress : Progress) : Prop :=
  ∀ element ∈ progress.elements, '>' ∉ element.name.written.toList

variable {setting : Setting} {progress : Progress}

open Scan

theorem gives_startTag (named : Named progress) : (startTag setting progress).Gives Named := by
  have written : (StartTag.scan setting.declarations setting.nesting).Gives fun written =>
      '>' ∉ written.name.written.toList :=
    gives_qualifiedName.bind fun name plain => Gives.after fun _ => Gives.after fun _ =>
      Gives.after fun _ => gives_pure plain
  have ended : ∀ (written : StartTag) (resolved : ResolvedTag), '>' ∉ written.name.written.toList → 
      (do
        let tag := resolved.tag setting.mode
        let opened := progress.tell (.start tag (resolved.told setting))
        if written.closed then return opened.tell (.finish tag)
        else
          let element := { name := written.name, tag, scope := resolved.scope }
          return { opened with elements := element :: progress.elements } : Scan Progress).Gives Named := by
    intro written resolved plain
    refine Gives.ite (gives_pure named) (gives_pure ?_)
    exact List.forall_mem_cons.2 ⟨plain, named⟩
  refine Gives.after fun _ => written.bind fun written plain => Gives.after fun resolved => ?_
  exact Gives.ite (Gives.after fun _ => ended written resolved plain) (ended written resolved plain)

/-- What an entity stands for leaves the elements open that are. -/
theorem gives_expandTold (named : Named progress) (expansion : Expansion) (replacement : List Char) :
    (liftM (expandTold expansion setting progress replacement) : Scan Progress).Gives Named := by
  intro text record later left after taken
  rw [liftM_run] at taken
  obtain ⟨result, read, same⟩ := Option.map_eq_some_iff.1 taken
  cases same
  obtain ⟨_, _, -, read⟩ := Reader.bind_eq_some_iff.1 read
  obtain ⟨_, _, -, given⟩ := Reader.bind_eq_some_iff.1 read
  cases given
  exact named

theorem gives_nextPart (named : Named progress) :
    (nextPart setting progress).Gives fun told => ∀ later ∈ told, Named later := by
  have kept : (pure (some progress) : Scan (Option Progress)).Gives fun told =>
      ∀ later ∈ told, Named later := gives_pure fun later member => Option.mem_some.1 member ▸ named
  refine Gives.after fun _ => Gives.ite (gives_pure nofun) ?_
  refine Gives.after fun _ => Gives.ite ?_ (Gives.after fun _ => Gives.ite ?_ ?_)
  · cases elements : progress.elements with
    | nil => exact gives_pure nofun
    | cons element outer =>
        refine Gives.after fun _ => Gives.map_some ?_
        refine Gives.after fun _ => Gives.after fun _ => Gives.after fun _ => gives_pure ?_
        intro other member
        exact named other (elements ▸ List.mem_cons_of_mem _ member)
  · exact Gives.after fun _ => kept
  refine Gives.after fun _ => Gives.ite (Gives.map_some ?_) ?_
  · exact Gives.after fun _ => Gives.after fun _ => gives_pure named
  refine Gives.after fun _ => Gives.ite (Gives.after fun _ => kept) ?_
  refine Gives.after fun _ => Gives.ite (gives_startTag named).map_some ?_
  refine Gives.after fun _ => Gives.ite (Gives.map_some ?_) (Gives.map_some ?_)
  · refine Gives.after fun _ => Gives.after fun reference => ?_
    cases reference with
    | code character => exact gives_pure named
    | predefined name character => exact gives_pure named
    | entity name =>
        dsimp only
        rcases setting.declarations.entities.lookup name with _ | replacement | _ | _
        · exact Gives.after fun _ => gives_pure named
        · cases setting.mode with
          | streaming => exact gives_expandTold named _ _
          | loading => exact Gives.after fun _ => gives_pure named
        · exact gives_pure named
        · exact gives_failure
  · exact Gives.after fun _ => gives_pure named

end Content

namespace Stream

variable {stream later : Stream}

/-! ## Steps -/

theorem run_eq_some_iff {α : Type} {scan : Scan α} {value : α} :
    stream.run scan = some (value, later) ↔
      ∃ text record, scan stream.text stream.record = some ((value, text), record) ∧
        later = { stream with text, record } := by
  refine Option.bind_eq_some_iff.trans ⟨?_, ?_⟩
  · rintro ⟨⟨⟨value, text⟩, record⟩, taken, same⟩
    cases same
    exact ⟨text, record, taken, rfl⟩
  · rintro ⟨text, record, taken, rfl⟩
    exact ⟨((value, text), record), taken, rfl⟩

/-- The stream that has come so far in the content. -/
def reach (stream : Stream) (progress : Progress) : Stream :=
  { stream with progress, stage := if progress.elements.isEmpty then .epilog else .content }

theorem advance_eq (stream : Stream) (scan : Progress → Scan Progress) :
    stream.advance scan =
      (stream.run (scan stream.progress)).map fun found => found.2.reach found.1 := by
  unfold Stream.advance
  cases stream.run (scan stream.progress) <;> rfl

theorem some_advance (stream : Stream) (scan : Progress → Scan Progress) :
    some <$> stream.advance scan =
      (stream.run (scan stream.progress)).map fun found => some (found.2.reach found.1) := by
  rw [advance_eq, Option.map_eq_map, Option.map_map]
  rfl

/-- The stream that has read what a document type begins with. -/
def enter (stream : Stream) (declared : Declarations × Bool) : Stream :=
  { stream with
    declarations := declared.1
    stage := if declared.2 then .subset else .beforeRoot }

theorem doctype_eq (final : Bool) (stream : Stream) :
    stream.doctype final =
      if (final || holdsTagEnd none (stream.text.drop 1)) = true then
        (stream.run (do
          Scan.exact "<!DOCTYPE"
          Doctype.head stream.declarations)).map fun found => some (found.2.enter found.1)
      else some none := by
  unfold Stream.doctype
  split
  · cases stream.run (do
        Scan.exact "<!DOCTYPE"
        Doctype.head stream.declarations) <;> rfl
  · rfl

theorem subset_eq (final : Bool) (stream : Stream) :
    stream.subset final =
      if (final || Search.ends .outside 1 stream.text) = true then
        (stream.run (Doctype.subset stream.declarations)).map fun found =>
          some (found.2.enter (found.1, false))
      else some none := by
  unfold Stream.subset
  split
  · cases stream.run (Doctype.subset stream.declarations) <;> rfl
  · rfl

/-- Whether the reading has begun. Content stands within elements, of which the names hold no closing mark. -/
structure Underway (stream : Stream) : Prop where
  opened : stream.stage ≠ .opening
  rooted : stream.stage = .content → stream.progress.elements ≠ []
  named : Content.Named stream.progress

/-- Whether what is read next, if anything, is underway. -/
def Goes (read : Option (Option Stream)) : Prop :=
  ∀ later, read = some (some later) → later.Underway

theorem goes_none : Goes none := nofun

theorem goes_waiting : Goes (some none) := nofun

theorem goes_some (underway : later.Underway) : Goes (some (some later)) := by
  rintro _ ⟨⟩
  exact underway

theorem Goes.ite {condition : Prop} [Decidable condition] {first second : Option (Option Stream)}
    (whenTrue : condition → Goes first) (whenFalse : ¬condition → Goes second) :
    Goes (if condition then first else second) := by
  split
  · next holds => exact whenTrue holds
  · next fails => exact whenFalse fails

theorem goes_run {α : Type} {scan : Scan α} (note : Stream → α → Stream)
    (noted : ∀ {value left record later}, scan stream.text stream.record = some ((value, left), record) →
      later = { stream with text := left, record } → (note later value).Underway) :
    Goes ((stream.run scan).map fun found => some (note found.2 found.1)) := by
  intro later read
  obtain ⟨⟨value, between⟩, ran, same⟩ := Option.map_eq_some_iff.1 read
  cases same
  obtain ⟨left, after, taken, rfl⟩ := run_eq_some_iff.1 ran
  exact noted taken rfl

section Underway

variable (underway : stream.Underway) (final : Bool)

include underway

theorem Underway.leave (text : List Char) (record : Record) :
    Underway { stream with text, record } := { underway with }

theorem Underway.skip (front mark : String) (body : Scan Unit) :
    Goes (stream.skip final front mark body) :=
  Goes.ite (fun _ => goes_run (fun later _ => later) fun _ same => same ▸ underway.leave _ _)
    fun _ => goes_waiting

omit underway in
theorem goes_advance {scan : Progress → Scan Progress}
    (named : ∀ {progress left record},
      scan stream.progress stream.text stream.record = some ((progress, left), record) →
        Content.Named progress) :
    Goes (some <$> stream.advance scan) := by
  rw [some_advance]
  refine goes_run reach ?_
  rintro progress left record _ taken rfl
  refine { opened := ?_, rooted := ?_, named := named taken }
  · dsimp only [reach]
    split <;> decide
  · dsimp only [reach]
    split
    · nofun
    · next filled => exact fun _ none => filled (List.isEmpty_iff.2 none)

theorem Underway.enter (declared : Declarations × Bool) : (stream.enter declared).Underway where
  opened := by
    dsimp only [Stream.enter]
    split <;> decide
  rooted := by
    dsimp only [Stream.enter]
    split <;> nofun
  named := underway.named

theorem Underway.startTag : Goes (stream.startTag final) := by
  unfold Stream.startTag
  split
  · refine Goes.ite (fun _ => goes_advance ?_) fun _ => goes_waiting
    intro progress left record taken
    obtain ⟨_, _, _, -, taken⟩ := Scan.bind_eq_some_iff.1 taken
    exact Content.gives_startTag underway.named _ _ _ _ _ taken
  · exact Goes.ite (fun _ => goes_none) fun _ => goes_waiting

theorem Underway.part (front : Nat) (mark : String) : Goes (stream.part final front mark) := by
  refine Goes.ite (fun _ => goes_advance ?_) fun _ => goes_waiting
  intro progress left record taken
  obtain ⟨told, _, _, taken, given⟩ := Scan.bind_eq_some_iff.1 taken
  cases told with
  | some later =>
      cases given
      exact Content.gives_nextPart underway.named _ _ _ _ _ taken _ rfl
  | none => cases given

theorem Underway.stretch : Goes (stream.stretch final) := by
  refine Goes.ite (fun _ => goes_advance ?_) fun _ => goes_waiting
  intro progress left record taken
  rw [Content.stretch_run] at taken
  obtain ⟨parts, -, same⟩ := Option.map_eq_some_iff.1 taken
  cases same
  exact underway.named

theorem Underway.doctype : Goes (stream.doctype final) := by
  rw [doctype_eq]
  refine Goes.ite (fun _ => goes_run Stream.enter ?_) fun _ => goes_waiting
  rintro declared left record _ - rfl
  exact (underway.leave left record).enter declared

theorem Underway.subset : Goes (stream.subset final) := by
  rw [subset_eq]
  refine Goes.ite (fun _ => goes_run (fun later declared => later.enter (declared, false)) ?_)
    fun _ => goes_waiting
  rintro declared left record _ - rfl
  exact (underway.leave left record).enter _

theorem Underway.outside : Goes (stream.outside final) := by
  refine Goes.ite (fun _ => goes_some { underway with }) fun _ => Goes.ite (fun _ => goes_waiting) fun _ => ?_
  refine Goes.ite (fun _ => underway.skip final _ _ _) fun _ => ?_
  refine Goes.ite (fun _ => underway.skip final _ _ _) fun _ => ?_
  refine Goes.ite (fun _ => Goes.ite (fun _ => goes_some ?_) fun _ => goes_none) fun _ => ?_
  · exact { opened := nofun, rooted := nofun, named := underway.named }
  refine Goes.ite (fun _ => goes_waiting) fun _ => ?_
  exact Goes.ite (fun _ => underway.doctype final) fun _ => underway.startTag final

theorem Underway.content : Goes (stream.content final) := by
  refine Goes.ite (fun _ => goes_waiting) fun _ => ?_
  refine Goes.ite (fun _ => underway.skip final _ _ _) fun _ => ?_
  refine Goes.ite (fun _ => underway.skip final _ _ _) fun _ => ?_
  refine Goes.ite (fun _ => underway.part final _ _) fun _ => ?_
  refine Goes.ite (fun _ => underway.part final _ _) fun _ => ?_
  refine Goes.ite (fun _ => underway.startTag final) fun _ => ?_
  exact Goes.ite (fun _ => underway.part final _ _) fun _ => underway.stretch final

theorem Underway.step : Goes (stream.step final) := by
  unfold Stream.step
  cases stage : stream.stage with
  | opening => exact absurd stage underway.opened
  | prolog | beforeRoot | epilog => exact underway.outside final
  | subset => exact Goes.ite (fun _ => goes_waiting) fun _ => underway.subset final
  | content => exact underway.content final
  | done => exact goes_waiting

end Underway

end Stream

end WordStream.Markup

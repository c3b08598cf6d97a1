import WordStream.Proofs.Markup.Finishing
import WordStream.Proofs.Markup.Gathered

/-!
# What was told before

How a document goes on does not hang on the calls that have been told of it. Streams that differ in how the texts
told so far are cut come to the same end.
-/

set_option autoImplicit false

namespace WordStream.Markup

namespace Scan

variable {α β γ : Type} {change : β → γ}

/-- What is changed at the end of a scan is changed behind its first part. -/
theorem bind_eq_map {first : Scan α} {next : α → Scan β} {onward : α → Scan γ}
    (same : ∀ value, onward value = change <$> next value) :
    first >>= onward = change <$> (first >>= next) := by
  rw [map_bind]
  exact bind_congr same

theorem ite_eq_map {condition : Prop} [Decidable condition] {first second : Scan β}
    {other another : Scan γ} (whenTrue : other = change <$> first)
    (whenFalse : another = change <$> second) :
    (if condition then other else another) = change <$> (if condition then first else second) := by
  split
  · exact whenTrue
  · exact whenFalse

theorem pure_eq_map (value : β) : (pure (change value) : Scan γ) = change <$> pure value :=
  (map_pure change value).symm

end Scan

/-- What has been read after some calls, the last one first, had been told. -/
def Progress.after (progress : Progress) (calls : List Call) : Progress :=
  { progress with calls := progress.calls ++ calls }

namespace Content

open Scan

variable (setting : Setting) (progress : Progress) (calls : List Call)

theorem startTag_after :
    startTag setting (progress.after calls) = (·.after calls) <$> startTag setting progress := by
  refine bind_eq_map fun _ => bind_eq_map fun written => bind_eq_map fun resolved => ?_
  refine ite_eq_map (bind_eq_map fun _ => ?_) ?_ <;> exact ite_eq_map (pure_eq_map _) (pure_eq_map _)

theorem endTag_after (element : Element) (outer : List Element) :
    endTag element outer (progress.after calls) = (·.after calls) <$> endTag element outer progress :=
  bind_eq_map fun _ => bind_eq_map fun _ => bind_eq_map fun _ => pure_eq_map _

theorem literalSection_after :
    literalSection (progress.after calls) = (·.after calls) <$> literalSection progress :=
  bind_eq_map fun _ => bind_eq_map fun _ => pure_eq_map _

theorem stretch_after (final : Bool) :
    stretch final (progress.after calls) = (·.after calls) <$> stretch final progress := by
  refine bind_eq_map fun pieces => ?_
  rw [← pure_eq_map]
  simp [Progress.after]

theorem expandTold_after (expansion : Expansion) (replacement : List Char) :
    expandTold expansion setting (progress.after calls) replacement =
      (·.after calls) <$> expandTold expansion setting progress replacement := by
  simp only [expandTold, map_bind, map_pure]
  refine bind_congr fun _ => bind_congr fun read => congrArg pure ?_
  simp [Progress.after]

theorem reference_after (expansion : Expansion) :
    reference expansion setting (progress.after calls) =
      (·.after calls) <$> reference expansion setting progress := by
  refine bind_eq_map fun body => bind_eq_map fun reference => ?_
  cases reference with
  | code character => exact pure_eq_map _
  | predefined name character => exact pure_eq_map _
  | entity name =>
      dsimp only
      rcases setting.declarations.entities.lookup name with _ | replacement | _ | _
      · exact bind_eq_map fun _ => pure_eq_map _
      · cases setting.mode with
        | streaming =>
            dsimp only
            rw [expandTold_after]
            exact liftM_map _ _
        | loading => exact bind_eq_map fun _ => pure_eq_map _
      · exact pure_eq_map _
      · rfl

theorem nextPart_after :
    nextPart setting (progress.after calls) =
      Option.map (·.after calls) <$> nextPart setting progress := by
  have told : ∀ {scan other : Scan Progress}, other = (·.after calls) <$> scan →
      some <$> other = Option.map (·.after calls) <$> some <$> scan := by
    rintro scan _ rfl
    simp only [Functor.map_map, Option.map_some]
  have none : (pure none : Scan (Option Progress)) =
      Option.map (fun progress : Progress => progress.after calls) <$> pure none := by
    rw [map_pure, Option.map_none]
  refine bind_eq_map fun text => ite_eq_map none ?_
  refine bind_eq_map fun _ => ite_eq_map ?_ ?_
  · have elements : (progress.after calls).elements = progress.elements := rfl
    rw [elements]
    cases progress.elements with
    | nil => exact none
    | cons element outer => exact bind_eq_map fun _ => told (endTag_after progress calls element outer)
  refine bind_eq_map fun _ => ite_eq_map (bind_eq_map fun _ => pure_eq_map _) ?_
  refine bind_eq_map fun _ => ite_eq_map (told (literalSection_after progress calls)) ?_
  refine bind_eq_map fun _ => ite_eq_map (bind_eq_map fun _ => pure_eq_map _) ?_
  refine bind_eq_map fun _ => ite_eq_map (told (startTag_after setting progress calls)) ?_
  refine bind_eq_map fun _ => ite_eq_map (told (reference_after setting progress calls _)) ?_
  exact told (stretch_after progress calls true)

end Content

namespace Stream

variable {stream other later last : Stream} {calls : List Call}

/-- A stream to which some calls, the last one first, had been told before. -/
def after (stream : Stream) (calls : List Call) : Stream :=
  { stream with progress := stream.progress.after calls }

theorem told_after (stream : Stream) (calls : List Call) :
    (stream.after calls).told = calls.reverse ++ stream.told :=
  List.reverse_append

theorem run_map {α β : Type} (stream : Stream) (change : α → β) (scan : Scan α) :
    stream.run (change <$> scan) = (stream.run scan).map fun found => (change found.1, found.2) := by
  change ((change <$> scan) stream.text stream.record).bind _ =
    ((scan stream.text stream.record).bind _).map _
  rw [Scan.map_run]
  cases scan stream.text stream.record <;> rfl

theorem run_after {α : Type} (stream : Stream) (calls : List Call) (scan : Scan α) :
    (stream.after calls).run scan = (stream.run scan).map fun found => (found.1, found.2.after calls) := by
  change (scan stream.text stream.record).bind _ = ((scan stream.text stream.record).bind _).map _
  cases scan stream.text stream.record <;> rfl

theorem advance_after (stream : Stream) (calls : List Call) {scan : Progress → Scan Progress}
    (same : scan (stream.progress.after calls) = (·.after calls) <$> scan stream.progress) :
    (stream.after calls).advance scan = (stream.advance scan).map (·.after calls) := by
  rw [advance_eq, advance_eq, run_after]
  have progress : (stream.after calls).progress = stream.progress.after calls := rfl
  rw [progress, same, run_map]
  cases stream.run (scan stream.progress) <;> rfl

/-- Whether what is read next is read where calls had been told before. -/
def Shifts (calls : List Call) (read others : Option (Option Stream)) : Prop :=
  others = read.map (Option.map (·.after calls))

theorem Shifts.ite {condition : Prop} [Decidable condition] {first second : Option (Option Stream)}
    {third fourth : Option (Option Stream)} (whenTrue : Shifts calls first third)
    (whenFalse : Shifts calls second fourth) :
    Shifts calls (if condition then first else second) (if condition then third else fourth) := by
  split
  · exact whenTrue
  · exact whenFalse

section Steps

variable (stream calls) (final : Bool)

theorem shifts_skip (front mark : String) (body : Scan Unit) :
    Shifts calls (stream.skip final front mark body) ((stream.after calls).skip final front mark body) := by
  refine Shifts.ite ?_ rfl
  rw [Shifts, run_after, Option.map_map, Option.map_map]
  rfl

theorem shifts_advance {scan : Progress → Scan Progress}
    (same : scan (stream.progress.after calls) = (·.after calls) <$> scan stream.progress) :
    Shifts calls (some <$> stream.advance scan) (some <$> (stream.after calls).advance scan) := by
  rw [advance_after stream calls same]
  cases stream.advance scan <;> rfl

theorem shifts_startTag : Shifts calls (stream.startTag final) ((stream.after calls).startTag final) := by
  have text : (stream.after calls).text = stream.text := rfl
  have setting : (stream.after calls).setting = stream.setting := rfl
  unfold Stream.startTag
  rw [text, setting]
  split
  · refine Shifts.ite (shifts_advance stream calls ?_) rfl
    exact Scan.bind_eq_map fun _ => Content.startTag_after _ _ _
  · exact Shifts.ite rfl rfl

theorem shifts_part (front : Nat) (mark : String) :
    Shifts calls (stream.part final front mark) ((stream.after calls).part final front mark) := by
  refine Shifts.ite (shifts_advance stream calls ?_) rfl
  rw [Content.nextPart_after, map_bind, bind_map_left]
  refine bind_congr fun told => ?_
  cases told with
  | some later => exact Scan.pure_eq_map _
  | none => rfl

theorem shifts_stretch : Shifts calls (stream.stretch final) ((stream.after calls).stretch final) :=
  Shifts.ite (shifts_advance stream calls (Content.stretch_after _ _ final)) rfl

theorem shifts_doctype : Shifts calls (stream.doctype final) ((stream.after calls).doctype final) := by
  rw [doctype_eq, doctype_eq]
  refine Shifts.ite ?_ rfl
  rw [Shifts, run_after, Option.map_map, Option.map_map]
  rfl

theorem shifts_subset : Shifts calls (stream.subset final) ((stream.after calls).subset final) := by
  rw [subset_eq, subset_eq]
  refine Shifts.ite ?_ rfl
  rw [Shifts, run_after, Option.map_map, Option.map_map]
  rfl

theorem shifts_outside : Shifts calls (stream.outside final) ((stream.after calls).outside final) := by
  refine Shifts.ite rfl (Shifts.ite rfl ?_)
  refine Shifts.ite (shifts_skip ..) (Shifts.ite (shifts_skip ..) ?_)
  refine Shifts.ite (Shifts.ite rfl rfl) (Shifts.ite rfl ?_)
  exact Shifts.ite (shifts_doctype ..) (shifts_startTag ..)

theorem shifts_content : Shifts calls (stream.content final) ((stream.after calls).content final) := by
  refine Shifts.ite rfl (Shifts.ite (shifts_skip ..) (Shifts.ite (shifts_skip ..) ?_))
  refine Shifts.ite (shifts_part ..) (Shifts.ite (shifts_part ..) ?_)
  exact Shifts.ite (shifts_startTag ..) (Shifts.ite (shifts_part ..) (shifts_stretch ..))

theorem shifts_openText : Shifts calls (stream.openText final) ((stream.after calls).openText final) := by
  change (Opening.read stream.encodings final stream.bytes stream.record).bind _ =
    ((Opening.read stream.encodings final stream.bytes stream.record).bind _).map _
  rcases Opening.read stream.encodings final stream.bytes stream.record with _ | ⟨_ | opening, record⟩ <;>
    rfl

end Steps

theorem step_after (stream : Stream) (calls : List Call) (final : Bool) :
    (stream.after calls).step final = (stream.step final).map (Option.map (·.after calls)) := by
  have stage : (stream.after calls).stage = stream.stage := rfl
  unfold Stream.step
  rw [stage]
  cases stage : stream.stage with
  | opening => exact shifts_openText stream calls final
  | prolog | beforeRoot | epilog => exact shifts_outside stream calls final
  | subset => exact Shifts.ite rfl (shifts_subset ..)
  | content => exact shifts_content stream calls final
  | done => rfl

theorem Ends.after (ends : stream.Ends last) (calls : List Call) :
    (stream.after calls).Ends (last.after calls) := by
  induction ends with
  | finished waits isOver => exact .finished (by rw [step_after, waits]; rfl) isOver
  | onward read _ ih => exact .onward (by rw [step_after, read]; rfl) ih

theorem Ends.of_after (ends : (stream.after calls).Ends last) :
    ∃ before, stream.Ends before ∧ last = before.after calls := by
  generalize same : stream.after calls = start at ends
  induction ends generalizing stream with
  | finished waits isOver =>
      subst same
      rw [step_after, Option.map_eq_some_iff] at waits
      obtain ⟨found, waits, none⟩ := waits
      rw [Option.map_eq_none_iff] at none
      exact ⟨stream, .finished (none ▸ waits) isOver, rfl⟩
  | onward read _ ih =>
      subst same
      rw [step_after, Option.map_eq_some_iff] at read
      obtain ⟨found, read, some⟩ := read
      obtain ⟨next, rfl, same⟩ := Option.map_eq_some_iff.1 some
      obtain ⟨before, ends, sameToo⟩ := ih same
      exact ⟨before, .onward read ends, sameToo⟩

/-- Whether two streams differ at most in how the texts that have been told are cut. -/
def Retold (stream other : Stream) : Prop :=
  ∃ bare former latter, stream = after bare former ∧ other = after bare latter ∧
    ∀ rest, gather (former.reverse ++ rest) = gather (latter.reverse ++ rest)

theorem Retold.symm (retold : stream.Retold other) : other.Retold stream := by
  obtain ⟨bare, former, latter, same, sameToo, gathered⟩ := retold
  exact ⟨bare, latter, former, sameToo, same, fun rest => (gathered rest).symm⟩

theorem Retold.gather_told (retold : stream.Retold other) : gather stream.told = gather other.told := by
  obtain ⟨bare, former, latter, rfl, rfl, gathered⟩ := retold
  rw [told_after, told_after]
  exact gathered bare.told

theorem Retold.record_eq (retold : stream.Retold other) : stream.record = other.record := by
  obtain ⟨bare, former, latter, rfl, rfl, -⟩ := retold
  rfl

/-- A stream comes to the end if it does with its texts cut in another way, and tells the same. -/
theorem Retold.ends (retold : stream.Retold other) (ends : stream.Ends last) :
    ∃ finish, other.Ends finish ∧ last.Retold finish := by
  obtain ⟨bare, former, latter, rfl, rfl, gathered⟩ := retold
  obtain ⟨before, endsBare, rfl⟩ := ends.of_after
  exact ⟨before.after latter, endsBare.after latter, before, former, latter, rfl, rfl, gathered⟩

end Stream

end WordStream.Markup

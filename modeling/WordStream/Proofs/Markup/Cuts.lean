import WordStream.Proofs.Markup.Agreeing
import WordStream.Proofs.Markup.Reaching

/-!
# Steps before a document has arrived

A step is taken once the mark has come that ends it. It is the step that is taken where all text has arrived, save for
what is read as far as it has come, after which the document comes to the same end. Nothing is refused that is read
where all text has arrived, except that a document type may be taken for complete too early.
-/

set_option autoImplicit false
set_option synthInstance.maxSize 1000

namespace WordStream.Markup

namespace Stream

variable {stream later : Stream} {more : List Char}

/-- The stream with more text behind what has arrived. -/
def grown (stream : Stream) (more : List Char) : Stream :=
  { stream with text := stream.text ++ more }

/-- Whether no document type may be taken for complete too early. -/
def Calm (more : List Char) (stream : Stream) : Prop :=
  ('>' ∉ more ∧ '[' ∉ more) ∨ stream.stage ≠ .subset ∧ ¬"<!DOCTYPE".toList <:+: stream.text ++ more

/-- Whether a step that hangs on how much has arrived leaves a stream that comes to the same end. -/
structure Passes (more : List Char) (stream later : Stream) : Prop where
  opened : later.stage ≠ .opening
  record : later.record = stream.record
  declarations : later.declarations = stream.declarations
  agrees : ∀ other : Stream, other.stage = stream.stage → other.text = stream.text ++ more →
    other.progress = stream.progress → other.record.faulty = stream.record.faulty →
      other.Agrees
        { other with stage := later.stage, text := later.text ++ more, progress := later.progress }

/-- Whether a stream is what a step leaves of another one, with the same bytes to come. -/
structure Stems (stream later : Stream) : Prop where
  text : later.text <:+ stream.text
  decoder : later.decoder = stream.decoder
  begun : later.begun = stream.begun

/-- Whether what is read next is read where more text has arrived, too. -/
structure Grows (more : List Char) (stream : Stream) (read others : Option (Option Stream)) : Prop where
  onward : ∀ {later}, read = some (some later) →
    others = some (some (later.grown more)) ∨ stream.Passes more later
  stems : ∀ {later}, read = some (some later) → stream.Stems later
  calm : ∀ {later}, read = some (some later) → stream.Calm more → later.Calm more
  refused : read = none → stream.Calm more → others = none

theorem grows_waiting {others : Option (Option Stream)} : Grows more stream (some none) others where
  onward := nofun
  stems := nofun
  calm := nofun
  refused := nofun

theorem grows_none : Grows more stream none none where
  onward := nofun
  stems := nofun
  calm := nofun
  refused _ _ := rfl

theorem Grows.ite {condition : Prop} [Decidable condition] {first second third fourth : Option (Option Stream)}
    (whenTrue : condition → Grows more stream first third)
    (whenFalse : ¬condition → Grows more stream second fourth) :
    Grows more stream (if condition then first else second)
      (if condition then third else fourth) := by
  split
  · next holds => exact whenTrue holds
  · next fails => exact whenFalse fails

theorem Calm.leave (calm : stream.Calm more) (suffix : later.text <:+ stream.text)
    (stage : stream.stage ≠ .subset → later.stage ≠ .subset) : later.Calm more := by
  refine calm.imp_right fun ⟨outside, absent⟩ => ⟨stage outside, fun held => absent ?_⟩
  obtain ⟨front, same⟩ := suffix
  rw [← same, List.append_assoc]
  exact held.trans (List.suffix_append _ _).isInfix

theorem grows_of_passes {others : Option (Option Stream)} (passes : stream.Passes more later)
    (stems : stream.Stems later) (stage : stream.stage ≠ .subset → later.stage ≠ .subset) :
    Grows more stream (some (some later)) others where
  onward := by
    rintro _ ⟨⟩
    exact .inr passes
  stems := by
    rintro _ ⟨⟩
    exact stems
  calm := by
    rintro _ ⟨⟩ calm
    exact calm.leave stems.text stage
  refused := nofun

section Scans

variable {α : Type} {scan : Scan α} (note : Stream → α → Stream)

/-- What a scan gives of the text is given where more text has arrived, if nothing is given there that the text
is not enough for. -/
theorem grows_scan {come : Prop} [Decidable come]
    (longer : ∀ {value left record}, scan stream.text stream.record = some ((value, left), record) →
      left <:+ stream.text ∧
        scan (stream.text ++ more) stream.record = some ((value, left ++ more), record))
    (shorter : ∀ {result}, come → stream.Calm more →
      scan (stream.text ++ more) stream.record = some result → scan stream.text stream.record ≠ none)
    (noted : ∀ later value, (note later value).grown more = note (later.grown more) value)
    (stems : ∀ (later : Stream) (value : α), later.Stems (note later value))
    (calms : ∀ later value, later.stage = stream.stage → later.text <:+ stream.text → stream.Calm more →
      (note later value).Calm more) :
    Grows more stream
      (if come then (stream.run scan).map fun found => some (note found.2 found.1) else some none)
      (((stream.grown more).run scan).map fun found => some (note found.2 found.1)) := by
  by_cases arrived : come
  · rw [if_pos arrived]
    have ran : ∀ {later}, (stream.run scan).map (fun found => some (note found.2 found.1)) =
        some (some later) → ∃ value left record,
          scan stream.text stream.record = some ((value, left), record) ∧
            later = note { stream with text := left, record } value := by
      intro later read
      obtain ⟨⟨value, between⟩, ran, same⟩ := Option.map_eq_some_iff.1 read
      cases same
      obtain ⟨left, record, taken, rfl⟩ := run_eq_some_iff.1 ran
      exact ⟨value, left, record, taken, rfl⟩
    constructor
    case onward =>
      intro later read
      obtain ⟨value, left, record, taken, rfl⟩ := ran read
      have given : (stream.grown more).run scan =
          some (value, grown { stream with text := left, record } more) :=
        run_eq_some_iff.2 ⟨left ++ more, record, (longer taken).2, rfl⟩
      rw [given, noted]
      exact .inl rfl
    case stems =>
      intro later read
      obtain ⟨value, left, record, taken, rfl⟩ := ran read
      have noted := stems { stream with text := left, record } value
      exact { noted with text := noted.text.trans (longer taken).1 }
    case calm =>
      intro later read calm
      obtain ⟨value, left, record, taken, rfl⟩ := ran read
      exact calms { stream with text := left, record } value rfl (longer taken).1 calm
    case refused =>
      intro refused calm
      rw [Option.map_eq_none_iff] at refused ⊢
      by_contra given
      obtain ⟨⟨value, between⟩, ran⟩ := Option.ne_none_iff_exists'.1 given
      obtain ⟨left, record, taken, -⟩ := run_eq_some_iff.1 ran
      obtain ⟨⟨⟨value, left⟩, record⟩, short⟩ := Option.ne_none_iff_exists'.1 (shorter arrived calm taken)
      cases refused.symm.trans (run_eq_some_iff.2 ⟨left, record, short, rfl⟩)
  · rw [if_neg arrived]
    exact grows_waiting

/-- What ends with a mark is taken once the mark has come. -/
theorem grows_run (stop : Char) [closing : Scan.Closing stop scan] {ready : List Char → Bool}
    (reaches : scan.Reaches ready)
    (mono : ∀ text more, ready text = true → ready (text ++ more) = true)
    (noted : ∀ later value, (note later value).grown more = note (later.grown more) value)
    (stems : ∀ (later : Stream) (value : α), later.Stems (note later value))
    (stage : ∀ later value, stream.stage ≠ .subset → later.stage = stream.stage →
      (note later value).stage ≠ .subset) :
    Grows more stream
      (if (false || ready stream.text) = true then
        (stream.run scan).map fun found => some (note found.2 found.1)
      else some none)
      (((stream.grown more).run scan).map fun found => some (note found.2 found.1)) := by
  refine grows_scan note (fun taken => ⟨closing.suffix taken, (closing.lasts more).2 taken⟩) ?_ noted stems ?_
  · rintro ⟨⟨value, left⟩, record⟩ come - taken
    obtain ⟨rest, rfl⟩ := reaches.within mono come taken
    exact Option.ne_none_iff_exists'.2 ⟨_, (closing.lasts more).1 taken⟩
  · exact fun later value same suffix calm =>
      calm.leave ((stems later value).text.trans suffix) fun outside => stage later value outside same

end Scans

/-! ## The front of a text -/

/-- More text does not change which mark a text begins with that is decided. -/
theorem isPrefixOf_append {mark text : List Char} (decided : text <+: mark → mark <+: text) (more : List Char) :
    mark.isPrefixOf (text ++ more) = mark.isPrefixOf text := by
  rw [Bool.eq_iff_iff, List.isPrefixOf_iff_prefix, List.isPrefixOf_iff_prefix]
  refine ⟨fun begins => ?_, fun begins => begins.trans (List.prefix_append text more)⟩
  rcases List.prefix_or_prefix_of_prefix begins (List.prefix_append text more) with done | undone
  · exact done
  · exact decided undone

theorem decided_of_not_isUndecided {marks : List String} {text : List Char}
    (decided : ¬isUndecided marks text = true) {mark : String} (member : mark ∈ marks) :
    text <+: mark.toList → mark.toList <+: text := by
  intro front
  by_contra undone
  refine decided (List.any_eq_true.2 ⟨mark, member, ?_⟩)
  rw [Bool.and_eq_true, List.isPrefixOf_iff_prefix, Bool.not_eq_true', ← Bool.not_eq_true,
    List.isPrefixOf_iff_prefix]
  exact ⟨front, undone⟩

/-- A mark of nine characters has come if it begins the text and nine bytes have come. -/
theorem decided_of_holdsBytes {mark : String} (exact : ∀ front ∈ mark.toList.inits,
    holdsBytes 9 0 front = true → front = mark.toList) {text : List Char} (held : holdsBytes 9 0 text = true) :
    text <+: mark.toList → mark.toList <+: text :=
  fun front => exact text ((List.mem_inits text mark.toList).2 front) held ▸ List.prefix_rfl

theorem decided_of_single {mark : Char} {text : List Char} (filled : text ≠ []) :
    text <+: [mark] → [mark] <+: text := by
  intro front
  obtain ⟨first, rest, rfl⟩ := List.exists_cons_of_ne_nil filled
  exact List.cons_prefix_cons.2 ⟨(List.cons_prefix_cons.1 front).1.symm, List.nil_prefix⟩

/-- A mark of nine characters is decided where its front is, if nine bytes have come behind that. -/
theorem decided_of_front {mark : String} (front : String) (begins : front.toList <+: mark.toList)
    (exact : ∀ part ∈ mark.toList.inits, holdsBytes 9 0 part = true → part = mark.toList) {text : List Char}
    (decided : ∀ part ∈ front.toList.inits, text = part → front.toList <+: text)
    (arrived : front.toList <+: text → holdsBytes 9 0 text = true) :
    text <+: mark.toList → mark.toList <+: text := by
  intro part
  refine decided_of_holdsBytes exact (arrived ?_) part
  rcases List.prefix_or_prefix_of_prefix part begins with short | long
  · exact decided text ((List.mem_inits text front.toList).2 short) rfl
  · exact long

/-! ## Parts -/

theorem run_congr {α : Type} {scan other : Scan α}
    (same : scan stream.text stream.record = other stream.text stream.record) :
    stream.run scan = stream.run other := by
  change (scan stream.text stream.record).bind _ = (other stream.text stream.record).bind _
  rw [same]

/-- The parts that a mark tells are read where the mark comes first. -/
theorem nextPart_literalSection (setting : Setting) (progress : Progress) (rest : List Char) (record : Record) :
    Content.nextPart setting progress ("<![CDATA[".toList ++ rest) record =
      (some <$> Content.literalSection progress) rest record := by
  rfl

theorem nextPart_reference (setting : Setting) (progress : Progress) (rest : List Char) (record : Record) :
    Content.nextPart setting progress ("&".toList ++ rest) record =
      (some <$> Content.reference (Content.expand setting.nesting) setting progress) rest record := by
  rfl

theorem nextPart_endTag (setting : Setting) (progress : Progress) {element : Element} {outer : List Element}
    (elements : progress.elements = element :: outer) (rest : List Char) (record : Record) :
    Content.nextPart setting progress ("</".toList ++ rest) record =
      (some <$> Content.endTag element outer progress) rest record := by
  unfold Content.nextPart Content.part
  rw [elements]
  rfl

/-- A part is read as the scan that its mark tells. -/
theorem part_eq {marked : String} {scan : Scan Progress} (begins : marked.toList <+: stream.text)
    (reads : ∀ rest record, Content.nextPart stream.setting stream.progress (marked.toList ++ rest) record =
      (some <$> scan) rest record) (final : Bool) (front : Nat) (mark : String) :
    stream.part final front mark =
      if (final || holdsMark front mark stream.text) = true then
        (stream.run (Scan.exact marked >>= fun _ => scan)).map fun found => some (found.2.reach found.1)
      else some none := by
  obtain ⟨rest, text⟩ := begins
  unfold Stream.part
  rw [some_advance, run_congr]
  rw [← text]
  have taken : Scan.exact marked (marked.toList ++ rest) stream.record = some (((), rest), stream.record) := by
    rw [Scan.exact_run, Scan.dropExact?_eq_some_iff.2 rfl]
    rfl
  rw [Scan.bind_run taken]
  change (Content.nextPart stream.setting stream.progress (marked.toList ++ rest) stream.record).bind _ = _
  rw [reads, Scan.map_run]
  cases scan rest stream.record <;> rfl

theorem stage_reach (stream : Stream) (progress : Progress) : (stream.reach progress).stage ≠ .subset := by
  dsimp only [reach]
  split <;> decide

theorem grows_part {marked mark : String} {front : Nat} {scan : Scan Progress} (stop : Char)
    [Scan.Closing stop scan] (begins : marked.toList <+: stream.text)
    (reads : ∀ rest record, Content.nextPart stream.setting stream.progress (marked.toList ++ rest) record =
      (some <$> scan) rest record) (filled : mark.toList ≠ [])
    (reaches : (Scan.exact marked >>= fun _ => scan).Reaches (holdsMark front mark)) :
    Grows more stream (stream.part false front mark) ((stream.grown more).part true front mark) := by
  have beginsToo : marked.toList <+: (stream.grown more).text := begins.trans (List.prefix_append _ _)
  have closing : Scan.Closing stop (Scan.exact marked >>= fun _ => scan) := inferInstance
  rw [part_eq begins reads, part_eq beginsToo reads, Bool.true_or, if_pos rfl]
  exact grows_run reach stop reaches (fun _ more held => holdsMark_append filled held more) (fun _ _ => rfl)
    (fun later _ => ⟨List.suffix_rfl, rfl, rfl⟩) fun later progress _ _ => stage_reach later progress

theorem grows_skip {front mark : String} {body : Scan Unit} [Scan.Closing '>' body]
    (filled : mark.toList ≠ [])
    (reaches : (Scan.exact front >>= fun _ => body).Reaches (holdsMark front.length mark)) :
    Grows more stream (stream.skip false front mark body) ((stream.grown more).skip true front mark body) := by
  have closing : Scan.Closing '>' (Scan.exact front >>= fun _ => body) := inferInstance
  rw [Stream.skip, Stream.skip, Bool.true_or, if_pos rfl]
  exact grows_run (fun later _ => later) '>' reaches (fun _ more held => holdsMark_append filled held more) (fun _ _ => rfl)
    (fun later _ => ⟨List.suffix_rfl, rfl, rfl⟩) fun _ _ outside same => same ▸ outside

theorem holdsTagEnd_drop_append (text more : List Char) (held : holdsTagEnd none (text.drop 1) = true) :
    holdsTagEnd none ((text ++ more).drop 1) = true := by
  cases text with
  | nil => cases held
  | cons first rest => exact holdsTagEnd_append held more

theorem startTag_eq (begins : "<".toList <+: stream.text) (final : Bool) :
    stream.startTag final =
      if (final || holdsTagEnd none (stream.text.drop 1)) = true then
        (stream.run (do
          Scan.exact "<"
          Content.startTag stream.setting stream.progress)).map fun found => some (found.2.reach found.1)
      else some none := by
  obtain ⟨rest, text⟩ := begins
  unfold Stream.startTag
  rw [← some_advance stream fun progress => do
    Scan.exact "<"
    Content.startTag stream.setting progress, ← text]
  rfl

theorem startTag_of_other (filled : stream.text ≠ []) (other : ¬"<".toList <+: stream.text) (final : Bool) :
    stream.startTag final =
      if (final || holdsBytes 2 stream.decoder.held stream.text) = true then none else some none := by
  unfold Stream.startTag
  cases text : stream.text with
  | nil => exact absurd text filled
  | cons first rest =>
      have differs : first ≠ '<' := by
        rintro rfl
        exact other ⟨rest, text.symm⟩
      split
      · next same => exact absurd (List.cons.inj same).1 differs
      · rfl

theorem grows_startTag (filled : stream.text ≠ [])
    (begun : "<".toList.isPrefixOf (stream.text ++ more) = "<".toList.isPrefixOf stream.text) :
    Grows more stream (stream.startTag false) ((stream.grown more).startTag true) := by
  by_cases begins : "<".toList <+: stream.text
  · have beginsToo : "<".toList <+: (stream.grown more).text := begins.trans (List.prefix_append _ _)
    rw [startTag_eq begins, startTag_eq beginsToo, Bool.true_or, if_pos rfl]
    exact grows_run reach '>' (Content.reaches_startTag _ _) holdsTagEnd_drop_append (fun _ _ => rfl)
      (fun later _ => ⟨List.suffix_rfl, rfl, rfl⟩) fun later progress _ _ => stage_reach later progress
  · have filledToo : (stream.grown more).text ≠ [] := List.append_ne_nil_of_left_ne_nil filled more
    have beginsToo : ¬"<".toList <+: (stream.grown more).text := by
      rw [← List.isPrefixOf_iff_prefix] at begins ⊢
      exact begun ▸ begins
    rw [startTag_of_other filled begins, startTag_of_other filledToo beginsToo, Bool.true_or, if_pos rfl]
    split
    · exact grows_none
    · exact grows_waiting

/-! ## Document types -/

/-- What lasts is taken of the text where it leaves a mark that does not come with more text. -/
theorem exists_of_grown {α : Type} {stop : Char} {scan : Scan α} [lasting : Scan.Lasting stop scan]
    {text left : List Char} {record later : Record} {value : α} (outside : stop ∉ more)
    (taken : scan (text ++ more) record = some ((value, left), later)) (held : stop ∈ left) :
    ∃ rest, left = rest ++ more ∧ scan text record = some ((value, rest), later) := by
  rcases List.suffix_or_suffix_of_suffix (lasting.suffix taken) (List.suffix_append text more) with
    within | ⟨rest, rfl⟩
  · exact absurd (within.subset held) outside
  · exact ⟨rest, rfl, (lasting.lasts more ((List.mem_append.1 held).resolve_right outside)).1 taken⟩

theorem head_of_grown {declarations : Declarations} {declared : Declarations × Bool} {text left : List Char}
    {record later : Record} (noEnd : '>' ∉ more) (noBracket : '[' ∉ more)
    (taken : Doctype.head declarations (text ++ more) record = some ((declared, left), later)) :
    ∃ rest, Doctype.head declarations text record = some ((declared, rest), later) := by
  have whole := taken
  rw [Doctype.head_eq] at taken
  obtain ⟨incomplete, between, middle, front, behind⟩ := Scan.bind_eq_some_iff.1 taken
  obtain ⟨_, _, _, same, behind⟩ := Scan.bind_eq_some_iff.1 behind
  cases same
  split at behind
  · next bracketed =>
      cases behind
      obtain ⟨_, dropped⟩ := Option.isSome_iff_exists.1 bracketed
      have held : '[' ∈ left := by
        rw [Scan.dropExact?_eq_some_iff.1 dropped]
        exact List.mem_append_left _ (by decide)
      obtain ⟨rest, -, taken⟩ := exists_of_grown noBracket whole held
      exact ⟨rest, taken⟩
  · obtain ⟨_, _, _, closed, given⟩ := Scan.bind_eq_some_iff.1 behind
    cases given
    have held : '>' ∈ between := by
      rw [Scan.exact_eq_some closed]
      exact List.mem_append_left _ (by decide)
    obtain ⟨rest, rfl, short⟩ := exists_of_grown noEnd front held
    have kept := (List.mem_append.1 held).resolve_right noEnd
    obtain ⟨first, rest, rfl⟩ := List.exists_cons_of_ne_nil (List.ne_nil_of_mem kept)
    obtain rfl : first = '>' := (List.cons.inj (Scan.exact_eq_some closed)).1
    cases closed
    refine ⟨rest, ?_⟩
    rw [Doctype.head_eq, Scan.bind_run short]
    rfl

theorem subset_of_grown {declarations extended : Declarations} {text left : List Char}
    {record later : Record} (noEnd : '>' ∉ more)
    (taken : Doctype.subset declarations (text ++ more) record = some ((extended, left), later)) :
    ∃ rest, Doctype.subset declarations text record = some ((extended, rest), later) := by
  have same : Doctype.subset declarations = (do
      Scan.exact "["
      let extended ← Doctype.declarationsWithin maxNesting declarations
      Scan.exact "]"
      Scan.space
      return extended) >>= fun extended => Scan.exact ">" >>= fun _ => pure extended := by
    simp only [Doctype.subset, Doctype.close, bind_assoc, pure_bind]
  rw [same] at taken ⊢
  obtain ⟨_, between, middle, front, behind⟩ := Scan.bind_eq_some_iff.1 taken
  obtain ⟨_, _, _, closed, given⟩ := Scan.bind_eq_some_iff.1 behind
  cases given
  have held : '>' ∈ between := by
    rw [Scan.exact_eq_some closed]
    exact List.mem_append_left _ (by decide)
  obtain ⟨rest, rfl, short⟩ := exists_of_grown noEnd front held
  have kept := (List.mem_append.1 held).resolve_right noEnd
  obtain ⟨first, rest, rfl⟩ := List.exists_cons_of_ne_nil (List.ne_nil_of_mem kept)
  obtain rfl : first = '>' := (List.cons.inj (Scan.exact_eq_some closed)).1
  cases closed
  refine ⟨rest, ?_⟩
  rw [Scan.bind_run short]
  rfl

theorem grows_doctype (begins : "<!DOCTYPE".toList <+: stream.text) :
    Grows more stream (stream.doctype false) ((stream.grown more).doctype true) := by
  rw [doctype_eq, doctype_eq, Bool.true_or, if_pos rfl]
  obtain ⟨rest, text⟩ := begins
  have longer : stream.text ++ more = "<!DOCTYPE".toList ++ (rest ++ more) := by
    rw [← text, List.append_assoc]
  have exact : ∀ rest : List Char, Scan.exact "<!DOCTYPE" ("<!DOCTYPE".toList ++ rest) stream.record =
      some (((), rest), stream.record) := fun _ => rfl
  refine grows_scan Stream.enter ?_ ?_ (fun _ _ => rfl) (fun later _ => ⟨List.suffix_rfl, rfl, rfl⟩) ?_
  · intro declared left record taken
    rw [← text, Scan.bind_run (exact _)] at taken
    rw [longer, Scan.bind_run (exact _), ← text]
    exact ⟨((inferInstance : Scan.Lasting '>' (Doctype.head _)).suffix taken).trans (List.suffix_append _ _),
      Doctype.head_append taken more⟩
  · rintro ⟨⟨declared, left⟩, record⟩ - calm taken
    obtain ⟨noEnd, noBracket⟩ : '>' ∉ more ∧ '[' ∉ more := by
      refine calm.resolve_right fun absent => absent.2 ?_
      rw [longer]
      exact (List.prefix_append _ _).isInfix
    rw [longer, Scan.bind_run (exact _)] at taken
    obtain ⟨left, short⟩ := head_of_grown noEnd noBracket taken
    rw [← text, Scan.bind_run (exact _), short]
    nofun
  · refine fun later declared _ _ calm => .inl (calm.resolve_right fun absent => absent.2 ?_)
    rw [longer]
    exact (List.prefix_append _ _).isInfix

theorem grows_subset (stage : stream.stage = .subset) :
    Grows more stream (stream.subset false) ((stream.grown more).subset true) := by
  rw [subset_eq, subset_eq, Bool.true_or, if_pos rfl]
  have closing : Scan.Closing '>' (Doctype.subset stream.declarations) := inferInstance
  refine grows_scan (fun later declared => later.enter (declared, false))
    (fun taken => ⟨closing.suffix taken, (closing.lasts more).2 taken⟩) ?_ (fun _ _ => rfl)
    (fun later _ => ⟨List.suffix_rfl, rfl, rfl⟩) ?_
  · rintro ⟨⟨extended, left⟩, record⟩ - calm taken
    obtain ⟨rest, short⟩ := subset_of_grown (calm.resolve_right fun absent => absent.1 stage).1 taken
    exact Option.ne_none_iff_exists'.2 ⟨_, short⟩
  · exact fun later extended _ _ calm => .inl (calm.resolve_right fun absent => absent.1 stage)

theorem grows_stretch (rooted : stream.progress.elements ≠ []) (within : stream.stage = .content)
    (unbroken : stream.text.getLast? = some '\r' → more.head? ≠ some '\n') :
    Grows more stream (stream.stretch false) ((stream.grown more).stretch true) := by
  have longer : (stream.grown more).stretch true =
      (Stretch.split? true true {} (stream.text ++ more)).map fun parts =>
        some ((stream.grown more).tellStretch parts.1.pieces parts.2) := by
    have rootedToo : (stream.grown more).progress.elements ≠ [] := rooted
    exact stretch_run rootedToo within true
  rw [longer]
  unfold Stream.stretch
  split
  · rw [stretch_run rooted within]
    cases split : Stretch.split? false true {} stream.text with
    | none =>
        rw [Stretch.split?_eq_none_iff.2 (Stretch.read?_append_of_none (Stretch.split?_eq_none_iff.1 split) more)]
        exact grows_none
    | some parts =>
        obtain ⟨done, left⟩ := parts
        obtain ⟨_, found, -⟩ := Stretch.join_pieces split
        have opened : stream.stage ≠ .opening := within ▸ nofun
        refine grows_of_passes ⟨opened, rfl, rfl, fun other stage text progress _ => ?_⟩
          ⟨Stretch.suffix_of_read? found, rfl, rfl⟩ fun outside => outside
        have agrees : Agrees { other with text := stream.text ++ more }
            (other.tellStretch done.pieces (left ++ more)) :=
          agrees_tellStretch (progress ▸ rooted) (stage.trans within) split unbroken
        have same : other.tellStretch done.pieces (left ++ more) =
            { other with
              stage := stream.stage
              text := left ++ more
              progress := (stream.tellStretch done.pieces left).progress } := by
          simp only [tellStretch, progress, ← stage]
        rw [← text, same] at agrees
        exact agrees
  · exact grows_waiting

/-- What is read of content is decided once nothing more can make another mark of what has come. -/
theorem grows_content (underway : stream.Underway) (within : stream.stage = .content)
    (unbroken : stream.text.getLast? = some '\r' → more.head? ≠ some '\n') :
    Grows more stream (stream.content false) ((stream.grown more).content true) := by
  have rooted := underway.rooted within
  have longer : (stream.grown more).text = stream.text ++ more := rfl
  unfold Stream.content
  dsimp only
  by_cases waits : (stream.text.isEmpty || !false &&
      (isUndecided ["</", "<?", "<!--"] stream.text ||
        "<![".toList.isPrefixOf stream.text && !holdsBytes 9 0 stream.text)) = true
  · rw [if_pos waits]
    exact grows_waiting
  rw [if_neg waits]
  simp only [Bool.or_eq_true, Bool.and_eq_true, not_or, not_and, Bool.not_false, true_implies] at waits
  obtain ⟨filled, decided, arrived⟩ := waits
  have filled : stream.text ≠ [] := fun empty => filled (List.isEmpty_iff.2 empty)
  have filledToo : (stream.text ++ more).isEmpty = false :=
    List.isEmpty_eq_false_iff.2 (List.append_ne_nil_of_left_ne_nil filled more)
  have begun : ∀ mark ∈ ["</", "<?", "<!--"],
      mark.toList.isPrefixOf (stream.text ++ more) = mark.toList.isPrefixOf stream.text :=
    fun mark member => isPrefixOf_append (decided_of_not_isUndecided decided member) more
  have begunSection : "<![CDATA[".toList.isPrefixOf (stream.text ++ more) =
      "<![CDATA[".toList.isPrefixOf stream.text := by
    refine isPrefixOf_append (decided_of_front "<![" (by decide) (by decide) ?_ ?_) more
    · have fronts : ∀ part ∈ "<![".toList.inits, part ≠ [] →
          ¬isUndecided ["</", "<?", "<!--"] part = true → "<![".toList <+: part := by decide
      rintro _ member rfl
      exact fronts _ member filled decided
    · exact fun begins => by simpa using arrived (List.isPrefixOf_iff_prefix.2 begins)
  have begunTag : "<".toList.isPrefixOf (stream.text ++ more) = "<".toList.isPrefixOf stream.text :=
    isPrefixOf_append (decided_of_single filled) more
  have begunReference : "&".toList.isPrefixOf (stream.text ++ more) = "&".toList.isPrefixOf stream.text :=
    isPrefixOf_append (decided_of_single filled) more
  simp only [longer, filledToo, begun "<?" (by decide), begun "<!--" (by decide), begun "</" (by decide),
    begunSection, begunTag, begunReference, Bool.false_or, Bool.not_true, Bool.false_and, Bool.false_eq_true,
    if_false]
  refine .ite (fun _ => grows_skip (by decide) reaches_instruction) fun _ => ?_
  refine .ite (fun _ => grows_skip (by decide) reaches_comment) fun _ => ?_
  refine .ite (fun begins => ?_) fun _ => .ite (fun begins => ?_) fun _ => ?_
  · exact grows_part '>' (List.isPrefixOf_iff_prefix.1 begins) (nextPart_literalSection _ _) (by decide)
      (Content.reaches_literalSection _)
  · obtain ⟨element, outer, elements⟩ := List.exists_cons_of_ne_nil rooted
    have named := underway.named element (elements ▸ List.mem_cons_self)
    exact grows_part '>' (List.isPrefixOf_iff_prefix.1 begins) (nextPart_endTag _ _ elements) (by decide)
      (Content.reaches_endTag _ named outer)
  refine .ite (fun _ => grows_startTag filled begunTag) fun _ => .ite (fun begins => ?_) fun _ => ?_
  · exact grows_part ';' (List.isPrefixOf_iff_prefix.1 begins) (nextPart_reference _ _) (by decide)
      (Content.reaches_reference _ _ _)
  · exact grows_stretch rooted within unbroken

/-- Separating characters are passed over as far as they have come. -/
theorem passes_space (stage : stream.stage = .prolog ∨ stream.stage = .beforeRoot ∨ stream.stage = .epilog) :
    stream.Passes more { stream with text := stream.text.dropWhile isSpace } where
  opened := by rcases stage with same | same | same <;> simp [same]
  record := rfl
  declarations := rfl
  agrees other same text progress _ := by
    have agrees := agrees_dropWhile (same ▸ stage) stream.text more
    rw [← text] at agrees
    dsimp only
    rw [← same, ← progress]
    exact agrees

theorem step_of_dropped (epilog : stream.stage = .epilog) (faulty : stream.record.faulty = true)
    (filled : stream.text.isEmpty = false) (noSpace : stream.text.head?.any isSpace = false)
    (noInstruction : "<?".toList.isPrefixOf stream.text = false)
    (noComment : "<!--".toList.isPrefixOf stream.text = false) :
    stream.step true = some (some { stream with stage := .done, text := [] }) := by
  simp only [Stream.step, epilog, Stream.outside, filled, noSpace, noInstruction, noComment, faulty,
    Bool.false_or, Bool.not_true, Bool.false_and, Bool.false_eq_true, if_false, if_true]

/-- What stands behind the root element of a document with faults is dropped. -/
theorem passes_done (epilog : stream.stage = .epilog) (faulty : stream.record.faulty = true)
    (filled : (stream.text ++ more).isEmpty = false) (noSpace : (stream.text ++ more).head?.any isSpace = false)
    (noInstruction : "<?".toList.isPrefixOf (stream.text ++ more) = false)
    (noComment : "<!--".toList.isPrefixOf (stream.text ++ more) = false) :
    stream.Passes more { stream with stage := .done, text := [] } where
  opened := nofun
  record := rfl
  declarations := rfl
  agrees other same text progress faults := by
    rw [← text] at filled noSpace noInstruction noComment
    have read := step_of_dropped (same.trans epilog) (faults.trans faulty) filled noSpace noInstruction noComment
    rw [← progress]
    exact agrees_done read

theorem grows_outside (stage : stream.stage = .prolog ∨ stream.stage = .beforeRoot ∨ stream.stage = .epilog) :
    Grows more stream (stream.outside false) ((stream.grown more).outside true) := by
  have longer : (stream.grown more).text = stream.text ++ more := rfl
  have stageToo : (stream.grown more).stage = stream.stage := rfl
  have faulty : (stream.grown more).record.faulty = stream.record.faulty := rfl
  by_cases space : stream.text.head?.any isSpace = true
  · rw [outside_of_space false space]
    exact grows_of_passes (passes_space stage) ⟨List.dropWhile_suffix isSpace, rfl, rfl⟩ fun outside => outside
  have filledFront : ¬(stream.text.isEmpty = true) → stream.text ≠ [] :=
    fun filled empty => filled (List.isEmpty_iff.2 empty)
  unfold Stream.outside
  dsimp only
  rw [if_neg space]
  by_cases waits : (stream.text.isEmpty || !false && isUndecided ["<?", "<!--"] stream.text) = true
  · rw [if_pos waits]
    exact grows_waiting
  rw [if_neg waits]
  simp only [Bool.or_eq_true, Bool.and_eq_true, not_or, not_and, Bool.not_false, true_implies] at waits
  obtain ⟨filled, decided⟩ := waits
  have filled := filledFront filled
  have spaceToo : (stream.text ++ more).head?.any isSpace = false := by
    rw [List.head?_append_of_ne_nil _ filled, ← Bool.not_eq_true]
    exact space
  have filledToo : (stream.text ++ more).isEmpty = false :=
    List.isEmpty_eq_false_iff.2 (List.append_ne_nil_of_left_ne_nil filled more)
  have begun : ∀ mark ∈ ["<?", "<!--"],
      mark.toList.isPrefixOf (stream.text ++ more) = mark.toList.isPrefixOf stream.text :=
    fun mark member => isPrefixOf_append (decided_of_not_isUndecided decided member) more
  have begunTag : "<".toList.isPrefixOf (stream.text ++ more) = "<".toList.isPrefixOf stream.text :=
    isPrefixOf_append (decided_of_single filled) more
  have begunType : "<!DOCTYPE".toList.isPrefixOf (stream.text ++ more) =
      "<!DOCTYPE".toList.isPrefixOf stream.text ∨ "<!".toList <+: stream.text ∧ ¬holdsBytes 9 0 stream.text = true := by
    rw [or_iff_not_imp_right, not_and, not_not]
    intro arrived
    refine isPrefixOf_append (decided_of_front "<!" (by decide) (by decide) ?_ arrived) more
    have fronts : ∀ part ∈ "<!".toList.inits, part ≠ [] →
        ¬isUndecided ["<?", "<!--"] part = true → "<!".toList <+: part := by decide
    rintro _ member rfl
    exact fronts _ member filled decided
  simp only [longer, stageToo, faulty, spaceToo, filledToo, begun "<?" (by decide), begun "<!--" (by decide),
    Bool.false_or, Bool.not_true, Bool.false_and, Bool.and_false, Bool.false_eq_true, if_false]
  refine .ite (fun _ => grows_skip (by decide) reaches_instruction) fun noInstruction => ?_
  refine .ite (fun _ => grows_skip (by decide) reaches_comment) fun noComment => ?_
  refine .ite (fun epilog => .ite (fun faulty => ?_) fun _ => grows_none) fun _ => ?_
  · have passes := passes_done epilog faulty filledToo spaceToo
      ((begun "<?" (by decide)).trans (Bool.not_eq_true _ ▸ noInstruction))
      ((begun "<!--" (by decide)).trans (Bool.not_eq_true _ ▸ noComment))
    exact grows_of_passes passes ⟨List.nil_suffix, rfl, rfl⟩ fun _ => nofun
  split
  · exact grows_waiting
  next arrived =>
  by_cases prolog : stream.stage = .prolog
  · have begun := begunType.resolve_right fun brief => arrived (by simpa [prolog, List.isPrefixOf_iff_prefix] using brief)
    rw [begun]
    exact .ite (fun begins => grows_doctype (by simpa [prolog] using begins)) fun _ => grows_startTag filled begunTag
  · simp only [prolog, decide_false, Bool.false_and, Bool.false_eq_true, if_false]
    exact grows_startTag filled begunTag

/-- A step before all text has arrived, where no line end of two characters is cut. -/
theorem grows_step (underway : stream.Underway)
    (unbroken : stream.text.getLast? = some '\r' → more.head? ≠ some '\n') :
    Grows more stream (stream.step false) ((stream.grown more).step true) := by
  have longer : (stream.grown more).text = stream.text ++ more := rfl
  have same : (stream.grown more).stage = stream.stage := rfl
  unfold Stream.step
  rw [same]
  cases stage : stream.stage with
  | opening => exact absurd stage underway.opened
  | prolog => exact grows_outside (.inl stage)
  | beforeRoot => exact grows_outside (.inr (.inl stage))
  | epilog => exact grows_outside (.inr (.inr stage))
  | content => exact grows_content underway stage unbroken
  | done => exact grows_waiting
  | subset =>
      dsimp only
      split
      · exact grows_waiting
      · next filled =>
          have some := List.append_ne_nil_of_left_ne_nil (fun empty => filled (List.isEmpty_iff.2 empty)) more
          rw [longer, if_neg fun empty => some (List.isEmpty_iff.1 empty)]
          exact grows_subset stage

section Carrying

variable {bound room : Nat} {other last : Stream} (underway : stream.Underway)
  (unbroken : stream.text.getLast? = some '\r' → more.head? ≠ some '\n')
  (read : stream.step false = some (some later))

include underway unbroken read

/-- A stream along with one that has all its text stays so, up to where it comes to the same end. -/
theorem Along.onward (along : (stream.grown more).Along bound room other) (few : later.record.spent ≤ bound) :
    ∃ next, (later.grown more).Along bound room next ∧ other.Agrees next := by
  rcases (grows_step underway unbroken).onward read with readToo | passes
  · obtain ⟨next, readOther, along⟩ := along.step.along readToo few
    exact ⟨next, along, agrees_of_step readOther⟩
  · have faulty : other.record.faulty = stream.record.faulty := by
      rw [Record.faulty, Record.faulty, along.alike.faults]
      rfl
    have agrees := passes.agrees other along.stage along.text along.progress faulty
    refine ⟨_, ?_, agrees⟩
    exact
      { opened := passes.opened
        stage := rfl
        text := rfl
        declarations := along.declarations.trans (congrArg Declarations.relaxed passes.declarations.symm)
        progress := rfl
        alike := passes.record ▸ along.alike }

/-- A stream with which one is along that comes to an end stays so. -/
theorem Along.back (along : other.Along bound room (stream.grown more)) (otherUnderway : other.Underway)
    (ends : other.Ends last) (few : last.record.spent ≤ bound) :
    ∃ next, next.Along bound room (later.grown more) ∧ other.Agrees next := by
  rcases (grows_step underway unbroken).onward read with readToo | passes
  · cases ends with
    | finished waits => cases (along.step.waits waits).symm.trans readToo
    | onward readOther ends =>
        have spent := Nat.le_trans (ends.spent_le (otherUnderway.step true _ readOther)) few
        obtain ⟨next, readNext, along⟩ := along.step.along readOther spent
        cases readToo.symm.trans readNext
        exact ⟨_, along, agrees_of_step readOther⟩
  · have faulty : other.record.faulty = stream.record.faulty := by
      rw [Record.faulty, Record.faulty, ← along.alike.faults]
      rfl
    have agrees := passes.agrees other along.stage.symm along.text.symm along.progress.symm faulty
    refine ⟨_, ?_, agrees⟩
    exact
      { opened := passes.opened
        stage := rfl
        text := rfl
        declarations := passes.declarations.trans along.declarations
        progress := rfl
        alike := { along.alike with
          spent := (congrArg Record.spent passes.record).trans along.alike.spent
          faults := (congrArg Record.faults passes.record).trans along.alike.faults
          ample := along.alike.ample.imp_right fun between =>
            ⟨between.1, between.2.trans_eq (congrArg Record.size passes.record.symm)⟩ } }

end Carrying

end Stream

end WordStream.Markup

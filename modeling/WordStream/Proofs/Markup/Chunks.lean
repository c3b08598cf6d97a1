import WordStream.Proofs.Markup.Cuts
import WordStream.Proofs.Markup.Decoding

/-!
# Documents in chunks

A stream that is underway and is fed the rest of a document in chunks tells what a stream tells that holds all the
text of the rest, however it is cut, as long as no line end of two characters is. The entities may cost as much as the
size of the whole document allows.
-/

set_option autoImplicit false

namespace WordStream.Markup

open Reader (freeCost)

namespace Stream

variable {start : Decoder} {done rest : List UInt8} {more : List Char} {stream later last : Stream}

/-! ## Bytes that arrive -/

theorem take_of_opened (opened : stream.stage ≠ .opening) (bytes : List UInt8) :
    stream.take bytes =
      { stream with
        text := stream.text ++ (stream.decoder.take bytes).1
        decoder := (stream.decoder.take bytes).2
        record := { stream.record with size := stream.record.size + bytes.length } } := by
  unfold Stream.take
  cases stage : stream.stage with
  | opening => exact absurd stage opened
  | prolog | beforeRoot | subset | content | epilog | done => rfl

/-- Whether a stream is underway, and holds what it has not read of the bytes that have arrived. -/
structure Stands (start : Decoder) (done : List UInt8) (stream : Stream) : Prop where
  underway : stream.Underway
  begun : stream.begun = true
  decoder : stream.decoder = (start.take done).2
  text : stream.text <:+ (start.take done).1

theorem Stands.take (stands : stream.Stands start done) (bytes : List UInt8) :
    (stream.take bytes).Stands start (done ++ bytes) := by
  rw [take_of_opened stands.underway.opened]
  refine ⟨{ stands.underway with }, stands.begun, ?_, ?_⟩
  · rw [Decoder.take_append, ← stands.decoder]
  · rw [Decoder.take_append, ← stands.decoder]
    obtain ⟨front, same⟩ := stands.text
    exact ⟨front, by rw [← same, List.append_assoc]⟩

/-- No line end of two characters is cut in a stream where none is cut in the bytes. -/
theorem Stands.unbroken (stands : stream.Stands start done) (whole : ¬start.Breaks done rest)
    (come : stream.decoder.whole? rest = some more) :
    stream.text.getLast? = some '\r' → more.head? ≠ some '\n' := by
  intro ended begins
  refine whole ⟨?_, ?_⟩
  · obtain ⟨front, same⟩ := stands.text
    rw [← same, List.getLast?_append, ended]
    rfl
  · rw [← stands.decoder]
    exact Decoder.head?_of_whole? come begins

/-! ## Steps -/

theorem noted_of_step (underway : stream.Underway) (read : stream.step false = some (some later)) :
    stream.record.spent ≤ later.record.spent ∧ later.record.size = stream.record.size := by
  have bare : ∀ stream : Stream, stream.grown [] = stream := fun stream => by
    rw [grown, List.append_nil]
  rcases (grows_step underway (fun _ => nofun : _ → [].head? ≠ some '\n')).onward read with readToo | passes
  · rw [bare, bare] at readToo
    have follows := follows_relaxed underway.opened
    exact ⟨follows.dearer readToo, follows.size readToo⟩
  · rw [passes.record]
    exact ⟨Nat.le_refl _, rfl⟩

theorem Stands.step (stands : stream.Stands start done) (read : stream.step false = some (some later)) :
    later.Stands start done := by
  have stems := (grows_step stands.underway (fun _ => nofun : _ → [].head? ≠ some '\n')).stems read
  exact ⟨stands.underway.step false _ read, stems.begun.trans stands.begun,
    stems.decoder.trans stands.decoder, stems.text.trans stands.text⟩

/-- Whether a stream that gets the rest of its text from some more bytes comes to a last stream that tells what a
stream tells which holds all of it. -/
structure Tells (stream : Stream) (more : List Char) (count : Nat) (last : Stream) : Prop where
  cheaper : stream.record.spent ≤ last.record.spent
  told : ∀ {bound room : Nat} {other : Stream}, (stream.grown more).Along bound room other →
    last.record.spent ≤ bound → bound ≤ freeCost ∨ stream.record.size + count ≤ room →
      ∃ finish, other.Ends finish ∧ finish.record.spent = last.record.spent ∧
        gather finish.told = gather last.told

theorem Tells.of_ends (underway : stream.Underway) (ends : (stream.grown more).Ends last) (count : Nat) :
    stream.Tells more count last where
  cheaper := ends.spent_le { underway with }
  told along few _ := by
    obtain ⟨finish, endsToo, along⟩ := along.ends { underway with } ends few
    refine ⟨finish, endsToo, along.alike.spent, ?_⟩
    rw [Stream.told, along.progress, Stream.told]

section Steps

variable {count : Nat} (underway : stream.Underway)
  (unbroken : stream.text.getLast? = some '\r' → more.head? ≠ some '\n')

include underway unbroken

theorem Tells.of_step (read : stream.step false = some (some later)) (tells : later.Tells more count last) :
    stream.Tells more count last := by
  obtain ⟨dearer, size⟩ := noted_of_step underway read
  refine ⟨Nat.le_trans dearer tells.cheaper, fun along few ample => ?_⟩
  obtain ⟨next, along, agrees⟩ :=
    along.onward underway unbroken read (Nat.le_trans tells.cheaper few)
  obtain ⟨between, ends, spent, told⟩ := tells.told along few (size ▸ ample)
  obtain ⟨finish, ends, record, toldToo⟩ := agrees.found between ends
  exact ⟨finish, ends, (congrArg Record.spent record).trans spent, toldToo.trans told⟩

theorem Tells.of_steps {times : Nat} (ran : stream.steps false times = some later)
    (tells : later.Tells more count last) : stream.Tells more count last := by
  induction times generalizing stream with
  | zero =>
      cases ran
      exact tells
  | succ times ih =>
      obtain ⟨found, read, ran⟩ := Option.bind_eq_some_iff.1 ran
      cases found with
      | none =>
          cases ran
          exact tells
      | some next =>
          have stems := (grows_step underway unbroken).stems read
          have unbrokenToo : next.text.getLast? = some '\r' → more.head? ≠ some '\n' := fun ended => by
            obtain ⟨front, same⟩ := stems.text
            refine unbroken ?_
            rw [← same, List.getLast?_append, ended]
            rfl
          exact .of_step underway unbroken read (ih (underway.step false _ read) unbrokenToo ran)

end Steps

theorem Stands.steps (stands : stream.Stands start done) {times : Nat}
    (ran : stream.steps false times = some later) : later.Stands start done := by
  induction times generalizing stream with
  | zero =>
      cases ran
      exact stands
  | succ times ih =>
      obtain ⟨found, read, ran⟩ := Option.bind_eq_some_iff.1 ran
      cases found with
      | none =>
          cases ran
          exact stands
      | some next => exact ih (stands.step read) ran

/-- What arrives is text that is yet to be read, and lets entities cost more. -/
theorem Tells.of_take (opened : stream.stage ≠ .opening) {bytes : List UInt8} {count : Nat}
    (tells : (stream.take bytes).Tells more count last) :
    stream.Tells ((stream.decoder.take bytes).1 ++ more) (bytes.length + count) last := by
  rw [take_of_opened opened] at tells
  refine ⟨tells.cheaper, fun {bound room other} along few ample => ?_⟩
  rw [← Nat.add_assoc] at ample
  refine tells.told ?_ few ample
  refine { along with text := along.text.trans (List.append_assoc ..).symm, alike := ?_ }
  refine ⟨along.alike.spent, along.alike.faults, ?_⟩
  rcases ample with free | enough
  · exact .inl free
  · exact along.alike.ample.imp_right fun between => ⟨Nat.le_trans (Nat.le_add_right _ _) enough, between.2⟩

/-- A stream that is underway is read to its end where the document ends. -/
theorem last?_eq_some_iff (underway : stream.Underway) (begun : stream.begun = true) :
    stream.last? = some last ↔
      ∃ rest, stream.decoder.finish? = some rest ∧ (stream.grown rest).Ends last := by
  have open? : stream.open? = some stream := if_neg underway.opened
  have ended? : stream.ended? = stream.decoder.finish?.map stream.grown := by
    unfold Stream.ended?
    rw [begun, open?]
    cases finished : stream.decoder.finish? <;> simp [grown, guard, finished]
  have isOver : ∀ {found : Stream}, (do
      let last ← found.readOn true
      guard (last.stage = .epilog || last.stage = .done)
      return last : Option Stream) = some last ↔ found.readOn true = some last ∧ last.IsOver := by
    intro found
    simp [Option.bind_eq_some_iff, Option.guard_eq_some', IsOver]
  have underwayToo : ∀ rest, (stream.grown rest).Underway := fun _ => { underway with }
  unfold Stream.last?
  rw [ended?]
  constructor
  · intro ran
    obtain ⟨found, arrived, ran⟩ := Option.bind_eq_some_iff.1 ran
    obtain ⟨rest, finished, rfl⟩ := Option.map_eq_some_iff.1 arrived
    exact ⟨rest, finished, (ends_iff_readOn (underwayToo rest)).2 (isOver.1 ran)⟩
  · rintro ⟨rest, finished, ends⟩
    rw [finished]
    exact isOver.2 ((ends_iff_readOn (underwayToo rest)).1 ends)

/-! ## Feeding -/

def bytesOf (chunks : List ByteArray) : List UInt8 :=
  chunks.flatMap fun chunk => chunk.data.toList

/-- Whether no chunk behind bytes of a document is read at once up to within a line end of two characters, past what
stands at the head of the document. -/
def KeepsLines (head : List UInt8) (start : Decoder) (done : List UInt8) (chunks : List ByteArray) : Prop :=
  ∀ former chunk latter part, chunks = former ++ chunk :: latter → chunk.data.toList ≠ [] →
    done ++ bytesOf former ++ (splitReturn chunk.data.toList).1 = head ++ part →
      ¬start.Breaks part ((splitReturn chunk.data.toList).2 ++ bytesOf latter)

theorem KeepsLines.tail {head : List UInt8} {chunk : ByteArray} {chunks : List ByteArray}
    (keeps : KeepsLines head start done (chunk :: chunks)) :
    KeepsLines head start (done ++ chunk.data.toList) chunks := by
  rintro former next latter part rfl filled split
  refine keeps (chunk :: former) next latter part rfl filled ?_
  rw [bytesOf, List.flatMap_cons, ← List.append_assoc]
  exact split

theorem KeepsLines.behind {head : List UInt8} {chunks : List ByteArray}
    (keeps : KeepsLines head start (head ++ done) chunks) : KeepsLines [] start done chunks := by
  rintro former chunk latter part same filled split
  refine keeps former chunk latter part same filled ?_
  rw [List.append_assoc, List.append_assoc, ← List.append_assoc done, split, List.nil_append]

theorem append_splitReturn (bytes : List UInt8) :
    (splitReturn bytes).1 ++ (splitReturn bytes).2 = bytes := by
  unfold splitReturn
  split
  · next ended => exact List.dropLast_append_getLast? _ ended
  · exact List.append_nil bytes

/-- No line end is cut where the bytes can only be cut within one behind the byte of a carriage return, as that byte is
left for later. -/
theorem keepsLines_of_breaksPlainly {head body : List UInt8} {chunks : List ByteArray}
    (plainly : start.BreaksPlainly body) (joined : done ++ bytesOf chunks = head ++ body) :
    KeepsLines head start done chunks := by
  rintro former chunk latter part rfl filled split breaks
  have whole : done ++ bytesOf former ++ (splitReturn chunk.data.toList).1 ++
      ((splitReturn chunk.data.toList).2 ++ bytesOf latter) = head ++ body := by
    rw [List.append_assoc, ← List.append_assoc (splitReturn _).1, append_splitReturn, List.append_assoc, ← joined,
      bytesOf, bytesOf, bytesOf, List.flatMap_append, List.flatMap_cons]
  rw [split, List.append_assoc] at whole
  obtain ⟨ended, follows⟩ := plainly _ _ (List.append_cancel_left whole).symm breaks
  unfold splitReturn at split follows
  by_cases returns : chunk.data.toList.getLast? = some 0x0D
  · rw [if_pos returns] at follows
    exact follows rfl
  · rw [if_neg returns] at split
    have last := congrArg List.getLast? split
    rw [List.getLast?_append_of_ne_nil _ filled, List.getLast?_append, ended] at last
    exact returns last

theorem feed_of_begun (begun : stream.begun = true) (chunk : ByteArray) :
    stream.feed chunk =
      if chunk.data.toList = [] then some (stream.take chunk.data.toList)
      else stream.push chunk.data.toList := by
  have same : { stream with begun := true } = stream := by rw [← begun]
  unfold Stream.feed
  dsimp only
  rw [begun, same, if_pos rfl]
  exact if_congr (by rw [Nat.le_zero, List.length_eq_zero_iff]) rfl rfl

theorem push_eq_some_iff {bytes : List UInt8} :
    stream.push bytes = some later ↔
      ∃ between, (stream.take (splitReturn bytes).1).readOn false = some between ∧
        between.take (splitReturn bytes).2 = later :=
  Option.map_eq_some_iff

/-- What a stream reads on and then tells of the rest is told of all of it. -/
theorem Stands.tells {between : Stream} (stands : stream.Stands start done) {times count : Nat}
    {kept : List UInt8} (ran : stream.steps false times = some between)
    (whole : ¬start.Breaks done (kept ++ rest))
    (come : (between.take kept).decoder.whole? rest = some more)
    (tells : (between.take kept).Tells more count last) :
    ∃ text, stream.decoder.whole? (kept ++ rest) = some text ∧
      stream.Tells text (kept.length + count) last := by
  have standsBetween := stands.steps ran
  have same : between.decoder = stream.decoder := standsBetween.decoder.trans stands.decoder.symm
  rw [take_of_opened standsBetween.underway.opened] at come
  have comeAll : stream.decoder.whole? (kept ++ rest) = some ((between.decoder.take kept).1 ++ more) := by
    rw [← same, Decoder.whole?_append, come]
    rfl
  refine ⟨_, comeAll, .of_steps stands.underway (stands.unbroken whole comeAll) ran ?_⟩
  exact tells.of_take standsBetween.underway.opened

theorem tells_of_take (opened : stream.stage ≠ .opening) {bytes : List UInt8} {count : Nat}
    (come : (stream.take bytes).decoder.whole? rest = some more)
    (tells : (stream.take bytes).Tells more count last) :
    ∃ text, stream.decoder.whole? (bytes ++ rest) = some text ∧
      stream.Tells text (bytes.length + count) last := by
  refine ⟨_, ?_, tells.of_take opened⟩
  rw [take_of_opened opened] at come
  rw [Decoder.whole?_append, come]
  rfl

/-- Chunks tell what their text tells at once. -/
theorem tells_of_feedAll {chunks : List ByteArray} {ended : Stream} (stands : stream.Stands start done)
    (keeps : KeepsLines [] start done chunks) (fed : stream.feedAll? chunks = some ended)
    (ran : ended.last? = some last) :
    ∃ text, stream.decoder.whole? (bytesOf chunks) = some text ∧
      stream.Tells text (bytesOf chunks).length last := by
  induction chunks generalizing stream done with
  | nil =>
      cases fed
      obtain ⟨rest, finished, ends⟩ := (last?_eq_some_iff stands.underway stands.begun).1 ran
      exact ⟨rest, (Decoder.whole?_nil _).trans finished, .of_ends stands.underway ends _⟩
  | cons chunk chunks ih =>
      obtain ⟨next, fed, onward⟩ := Option.bind_eq_some_iff.1 fed
      rw [feed_of_begun stands.begun] at fed
      have opened := stands.underway.opened
      split at fed
      · next empty =>
          cases fed
          obtain ⟨text, come, tells⟩ := ih (stands.take _) keeps.tail onward
          obtain ⟨whole, come, tells⟩ := tells_of_take opened come tells
          have length : (bytesOf (chunk :: chunks)).length =
              chunk.data.toList.length + (bytesOf chunks).length := List.length_append
          exact ⟨whole, come, length ▸ tells⟩
      · next filled =>
          obtain ⟨between, read, rfl⟩ := push_eq_some_iff.1 fed
          have standsNow := stands.take (splitReturn chunk.data.toList).1
          have standsNext := (standsNow.steps read).take (splitReturn chunk.data.toList).2
          rw [List.append_assoc, append_splitReturn] at standsNext
          obtain ⟨text, come, tells⟩ := ih standsNext keeps.tail onward
          have whole := keeps [] chunk chunks _ rfl filled (by rw [bytesOf, List.flatMap_nil, List.append_nil]; rfl)
          obtain ⟨text, come, tells⟩ := standsNow.tells read whole come tells
          obtain ⟨text, come, tells⟩ := tells_of_take opened come tells
          rw [← List.append_assoc, append_splitReturn] at come
          rw [← Nat.add_assoc, ← List.length_append, append_splitReturn, ← List.length_append] at tells
          exact ⟨text, come, tells⟩

/-! ## Chunks that are read -/

theorem Along.underway {bound room : Nat} {other : Stream} (along : other.Along bound room stream)
    (underway : stream.Underway) : other.Underway where
  opened := along.opened
  rooted within := along.progress ▸ underway.rooted (along.stage.trans within)
  named := along.progress ▸ underway.named

theorem Underway.grown (underway : stream.Underway) : (stream.grown more).Underway := { underway with }

/-- Whether a stream that gets the rest of its text comes to the end of the document, at no more than is free. -/
def Finishes (stream : Stream) (more : List Char) : Prop :=
  ∃ other last : Stream,
    other.Along freeCost 0 (stream.grown more) ∧ other.Ends last ∧ last.record.spent ≤ freeCost

theorem Finishes.ends (finishes : stream.Finishes more) (underway : stream.Underway) :
    ∃ last, (stream.grown more).Ends last := by
  obtain ⟨other, last, along, ends, few⟩ := finishes
  obtain ⟨finish, ends, -⟩ := along.ends (along.underway underway.grown) ends few
  exact ⟨finish, ends⟩

theorem Finishes.step_ne_none (finishes : stream.Finishes more) (underway : stream.Underway)
    (unbroken : stream.text.getLast? = some '\r' → more.head? ≠ some '\n') (calm : stream.Calm more) :
    stream.step false ≠ none := by
  intro refused
  obtain ⟨last, ends⟩ := finishes.ends underway
  have refusedToo := (grows_step underway unbroken).refused refused calm
  cases ends with
  | finished waits => cases refusedToo.symm.trans waits
  | onward read => cases refusedToo.symm.trans read

theorem Finishes.step (finishes : stream.Finishes more) (underway : stream.Underway)
    (unbroken : stream.text.getLast? = some '\r' → more.head? ≠ some '\n')
    (read : stream.step false = some (some later)) : later.Finishes more := by
  obtain ⟨other, last, along, ends, few⟩ := finishes
  obtain ⟨next, along, agrees⟩ :=
    along.back underway unbroken read (along.underway underway.grown) ends few
  obtain ⟨finish, ends, record, -⟩ := agrees.finds last ends
  exact ⟨next, finish, along, ends, record ▸ few⟩

theorem Finishes.steps (finishes : stream.Finishes more) (underway : stream.Underway)
    (unbroken : stream.text.getLast? = some '\r' → more.head? ≠ some '\n') (calm : stream.Calm more)
    (times : Nat) :
    ∃ later, stream.steps false times = some later ∧ later.Finishes more ∧ later.Calm more := by
  induction times generalizing stream with
  | zero => exact ⟨stream, rfl, finishes, calm⟩
  | succ times ih =>
      obtain ⟨found, read⟩ := Option.ne_none_iff_exists'.1 (finishes.step_ne_none underway unbroken calm)
      have grows := grows_step underway unbroken
      cases found with
      | none => exact ⟨stream, by rw [Stream.steps, read]; rfl, finishes, calm⟩
      | some next =>
          have unbrokenToo : next.text.getLast? = some '\r' → more.head? ≠ some '\n' := fun ended => by
            obtain ⟨front, same⟩ := (grows.stems read).text
            refine unbroken ?_
            rw [← same, List.getLast?_append, ended]
            rfl
          obtain ⟨later, ran, kept⟩ := ih (finishes.step underway unbroken read)
            (underway.step false _ read) unbrokenToo (grows.calm read calm)
          exact ⟨later, by rw [Stream.steps, read]; exact ran, kept⟩

theorem Finishes.take (opened : stream.stage ≠ .opening) {bytes : List UInt8}
    (finishes : stream.Finishes ((stream.decoder.take bytes).1 ++ more)) :
    (stream.take bytes).Finishes more := by
  rw [take_of_opened opened]
  obtain ⟨other, last, along, ends, few⟩ := finishes
  refine ⟨other, last, { along with text := ?_, alike := ?_ }, ends, few⟩
  · exact (List.append_assoc ..).trans along.text
  · exact { along.alike with ample := .inl (Nat.le_refl _) }

theorem Calm.take (opened : stream.stage ≠ .opening) {bytes : List UInt8}
    (calm : stream.Calm ((stream.decoder.take bytes).1 ++ more)) : (stream.take bytes).Calm more := by
  rw [take_of_opened opened]
  refine calm.imp ?_ ?_
  · rintro ⟨noEnd, noBracket⟩
    exact ⟨fun member => noEnd (List.mem_append_right _ member),
      fun member => noBracket (List.mem_append_right _ member)⟩
  · rintro ⟨outside, absent⟩
    refine ⟨outside, fun held => absent ?_⟩
    rwa [← List.append_assoc]

theorem finishes_take (opened : stream.stage ≠ .opening) {bytes : List UInt8}
    (come : stream.decoder.whole? (bytes ++ rest) = some more) (finishes : stream.Finishes more)
    (calm : stream.Calm more) :
    ∃ text, (stream.take bytes).decoder.whole? rest = some text ∧ (stream.take bytes).Finishes text ∧
      (stream.take bytes).Calm text := by
  rw [Decoder.whole?_append, Option.map_eq_some_iff] at come
  obtain ⟨text, come, rfl⟩ := come
  refine ⟨text, ?_, finishes.take opened, calm.take opened⟩
  rw [take_of_opened opened]
  exact come

/-- A stream that comes to the end of the document reads on until more bytes come. -/
theorem Stands.finishes (stands : stream.Stands start done) {kept : List UInt8}
    (whole : ¬start.Breaks done (kept ++ rest)) (come : stream.decoder.whole? (kept ++ rest) = some more)
    (finishes : stream.Finishes more) (calm : stream.Calm more) (times : Nat) :
    ∃ between, stream.steps false times = some between ∧ (between.take kept).Stands start (done ++ kept) ∧
      ∃ text, (between.take kept).decoder.whole? rest = some text ∧ (between.take kept).Finishes text ∧
        (between.take kept).Calm text := by
  obtain ⟨between, ran, finishes, calm⟩ :=
    finishes.steps stands.underway (stands.unbroken whole come) calm times
  have standsBetween := stands.steps ran
  have same : between.decoder = stream.decoder := standsBetween.decoder.trans stands.decoder.symm
  exact ⟨between, ran, standsBetween.take kept,
    finishes_take standsBetween.underway.opened (same ▸ come) finishes calm⟩

/-- Chunks are read where their text is read at once, unless a document type may be taken for complete too
early. -/
theorem exists_feedAll {chunks : List ByteArray} (stands : stream.Stands start done)
    (keeps : KeepsLines [] start done chunks) (come : stream.decoder.whole? (bytesOf chunks) = some more)
    (finishes : stream.Finishes more) (calm : stream.Calm more) :
    ∃ ended last : Stream, stream.feedAll? chunks = some ended ∧ ended.last? = some last := by
  induction chunks generalizing stream done more with
  | nil =>
      obtain ⟨last, ends⟩ := finishes.ends stands.underway
      have finished := (Decoder.whole?_nil _).symm.trans come
      exact ⟨stream, last, rfl, (last?_eq_some_iff stands.underway stands.begun).2 ⟨more, finished, ends⟩⟩
  | cons chunk chunks ih =>
      have opened := stands.underway.opened
      obtain ⟨next, fed, standsNext, text, come, finishes, calm⟩ : ∃ next, stream.feed chunk = some next ∧
          next.Stands start (done ++ chunk.data.toList) ∧ ∃ text,
            next.decoder.whole? (bytesOf chunks) = some text ∧ next.Finishes text ∧ next.Calm text := by
        rw [feed_of_begun stands.begun]
        split
        · exact ⟨_, rfl, stands.take _, finishes_take opened come finishes calm⟩
        · next filled =>
            have whole := keeps [] chunk chunks _ rfl filled (by rw [bytesOf, List.flatMap_nil, List.append_nil]; rfl)
            rw [bytesOf, List.flatMap_cons, ← append_splitReturn chunk.data.toList, List.append_assoc] at come
            obtain ⟨text, come, finishes, calm⟩ := finishes_take opened come finishes calm
            obtain ⟨between, ran, standsNext, kept⟩ := (stands.take _).finishes whole come finishes calm _
            rw [List.append_assoc, append_splitReturn] at standsNext
            exact ⟨_, push_eq_some_iff.2 ⟨between, ran, rfl⟩, standsNext, kept⟩
      obtain ⟨ended, last, fedAll, ran⟩ := ih standsNext keeps.tail come finishes calm
      refine ⟨ended, last, ?_, ran⟩
      rw [Stream.feedAll?, List.foldlM_cons, fed]
      exact fedAll

end Stream

end WordStream.Markup

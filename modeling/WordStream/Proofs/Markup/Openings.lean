import WordStream.Proofs.Markup.Chunks
import WordStream.Proofs.Markup.Opening
import WordStream.Proofs.Markup.Stray

/-!
# Documents from their first byte

Nothing is read of a document before all of its head has arrived. Then it is read as a stream is that holds all the
text behind the head from the start, in whatever chunks it comes. A document without a declaration has no head.
-/

set_option autoImplicit false

namespace WordStream.Markup

open Reader (freeCost)

namespace Stream

variable {encodings : Encodings} {start : Decoder} {standalone : Bool} {head body done rest : List UInt8}
  {text more : List Char} {stream last : Stream} {chunks : List ByteArray}

/-- A stream that has got some bytes and has not read any. -/
def unopened (encodings : Encodings) (begun : Bool) (bytes : List UInt8) : Stream :=
  { encodings, begun, bytes, record := { size := bytes.length } }

theorem take_unopened (begun : Bool) (done bytes : List UInt8) :
    (unopened encodings begun done).take bytes = unopened encodings begun (done ++ bytes) := by
  simp [Stream.take, unopened]

/-- A stream at the beginning of a text that is there at once. -/
def ofText (text : List Char) (size : Nat) : Stream :=
  { encodings := .standard, begun := true, stage := .prolog, text, record := { size } }

/-- Whether a last stream tells what is told of a text that is there at once, in a document that is large enough for
what its entities cost. -/
def TellsText (text : List Char) (count : Nat) (last : Stream) : Prop :=
  ∀ size, last.record.spent ≤ freeCost ∨ count ≤ size →
    ∃ finish, (ofText text size).Ends finish ∧ finish.record.spent = last.record.spent ∧
      gather finish.told = gather last.told

/-! ## Behind the head of a document -/

/-- Whether a stream has just opened behind the head of a document, and has got some bytes more of it. -/
structure Fresh (start : Decoder) (standalone : Bool) (part : List UInt8) (stream : Stream) : Prop where
  begun : stream.begun = true
  stage : stream.stage = .prolog
  decoder : stream.decoder = (start.take part).2
  text : stream.text = (start.take part).1
  declarations : stream.declarations = { standalone }
  progress : stream.progress = {}
  spent : stream.record.spent = 0
  faults : stream.record.faults = 0

section Fresh

variable {part : List UInt8} (fresh : stream.Fresh start standalone part)

include fresh

theorem Fresh.stands : stream.Stands start part where
  underway :=
    { opened := fresh.stage ▸ nofun
      rooted := fun within => nomatch fresh.stage.symm.trans within
      named := by
        rw [fresh.progress]
        exact fun _ member => nomatch member }
  begun := fresh.begun
  decoder := fresh.decoder
  text := fresh.text ▸ List.suffix_rfl

theorem Fresh.outside : stream.stage ≠ .subset := fresh.stage ▸ nofun

/-- A stream that has just opened tells what its text tells. -/
theorem Fresh.tellsText {count : Nat} (tells : stream.Tells more count last) :
    TellsText ((start.take part).1 ++ more) (stream.record.size + count) last := by
  intro size ample
  have room : last.record.spent ≤ freeCost ∨ stream.record.size ≤ size ∧ size ≤ size :=
    ample.imp_right fun enough => ⟨Nat.le_trans (Nat.le_add_right _ _) enough, Nat.le_refl _⟩
  have along : (stream.grown more).Along last.record.spent size (ofText ((start.take part).1 ++ more) size) :=
    { opened := fresh.stage ▸ nofun
      stage := fresh.stage.symm
      text := by rw [grown, fresh.text]; rfl
      declarations := by rw [grown, fresh.declarations]; rfl
      progress := fresh.progress.symm
      alike := ⟨fresh.spent.symm, fresh.faults.symm, room⟩ }
  exact tells.told along (Nat.le_refl _) ample

theorem Fresh.finishes (relaxed : standalone = false) {size : Nat}
    (ends : (ofText ((start.take part).1 ++ more) size).Ends last) (few : last.record.spent ≤ freeCost) :
    stream.Finishes more := by
  refine ⟨_, last, ?_, ends, few⟩
  exact
    { opened := nofun
      stage := fresh.stage
      text := congrArg (· ++ more) fresh.text
      declarations := by rw [grown, fresh.declarations, relaxed]; rfl
      progress := fresh.progress
      alike := ⟨fresh.spent, fresh.faults, .inl (Nat.le_refl _)⟩ }

end Fresh

/-- Whether a document opens behind its head once all of that has arrived, and waits for it before. -/
def Opens (encodings : Encodings) (start : Decoder) (standalone : Bool) (head body : List UInt8) : Prop :=
  ∀ (final : Bool) {done rest : List UInt8}, done ++ rest = head ++ body → (final = true → rest = []) →
    (final = false ∧ (unopened encodings true done).openText final = some none) ∨
      ∃ (part : List UInt8) (opened : Stream), done = head ++ part ∧
        (unopened encodings true done).openText final = some (some opened) ∧
        opened.Fresh start standalone part ∧ opened.record.size = done.length

theorem openText_of_read (stream : Stream) {final : Bool} {opening? : Option Opening} {record : Record}
    (read : Opening.read stream.encodings final stream.bytes stream.record = some (opening?, record)) :
    stream.openText final =
      some (opening?.map fun opening =>
        { stream with
          stage := .prolog
          bytes := []
          decoder := opening.decoder
          text := opening.text
          declarations := { standalone := opening.declaration.standalone }
          record }) := by
  have run : (Opening.read stream.encodings final stream.bytes).run stream.record = some (opening?, record) := read
  rw [Stream.openText, run]
  rfl

/-- A document with a declaration opens behind that, in the encoding that it names. -/
theorem opens_declared {head : List Char} {declaration : Declaration} {encoding : Encoding} {noted : Record}
    (scanned : Declaration.scan head {} = some ((declaration, []), noted))
    (named : declaration.encoding.elim (some .utf8) encodings.ofName? = some encoding) :
    Opens encodings { encoding } declaration.standalone (head.flatMap String.utf8EncodeChar) body := by
  obtain ⟨middle, shape, plain⟩ := Declaration.exists_middle scanned
  intro final done rest split complete
  have opens : ∀ part : List UInt8, done = head.flatMap String.utf8EncodeChar ++ part →
      ∃ (part : List UInt8) (opened : Stream), done = head.flatMap String.utf8EncodeChar ++ part ∧
        (unopened encodings true done).openText final = some (some opened) ∧
        opened.Fresh { encoding } declaration.standalone part ∧ opened.record.size = done.length := by
    rintro part rfl
    obtain ⟨later, scannedToo, spent, faults, size⟩ :=
      Declaration.scan_append scanned (Decoder.take {} part).1
        (rfl : (unopened encodings true (head.flatMap String.utf8EncodeChar ++ part)).record.spent = 0) rfl
    have opensTo := openText_of_read (unopened encodings true _)
      (Opening.read_of_declaration shape plain final scannedToo named)
    exact ⟨part, _, rfl, opensTo,
      { begun := rfl, stage := rfl, decoder := rfl, text := rfl, declarations := rfl, progress := rfl, spent, faults },
      size⟩
  rcases List.append_eq_append_iff.1 split with ⟨more, within, behind⟩ | ⟨part, behind, -⟩
  · by_cases whole : more = []
    · exact .inr (opens [] (by rw [within, whole, List.append_nil, List.append_nil]))
    · have early : final = false := by
        refine Bool.eq_false_iff.2 fun ended => whole ?_
        exact (List.append_eq_nil_iff.1 (behind.symm.trans (complete ended))).1
      subst early
      exact .inl ⟨rfl, openText_of_read (unopened encodings true done)
        (Opening.read_within_declaration shape plain whole within.symm _)⟩
  · exact .inr (opens part behind)

/-- A document without a declaration opens where it begins, once enough of it has come to tell. -/
theorem opens_undeclared (proper : ¬Stray text) :
    Opens encodings {} false [] (text.flatMap String.utf8EncodeChar) := by
  intro final done rest split complete
  have front : (Decoder.take {} done).1 <+: text := by
    have whole := congrArg Prod.fst (Decoder.take_flatMap_utf8EncodeChar text)
    rw [← List.nil_append (text.flatMap _), ← split, Decoder.take_append] at whole
    exact ⟨_, whole⟩
  have properToo : ¬Stray (Decoder.take {} done).1 := fun stray => by
    obtain ⟨more, rfl⟩ := front
    exact proper (stray.append more)
  have unmarked : Encoding.ofMark? done = none := by
    by_contra marked
    exact properToo (stray_of_ofMark? marked)
  have undeclared : ¬Declaration.begins (Decoder.take {} done).1 = true := fun begins =>
    properToo (.declaration begins)
  rcases Opening.read_of_undeclared unmarked undeclared final (unopened encodings true done).record with
    ⟨early, waits⟩ | reads
  · exact .inl ⟨early, openText_of_read (unopened encodings true done) waits⟩
  · exact .inr ⟨done, _, rfl, openText_of_read (unopened encodings true done) reads,
      { begun := rfl, stage := rfl, decoder := rfl, text := rfl, declarations := rfl, progress := rfl, spent := rfl
        faults := rfl }, rfl⟩

/-! ## The first chunks -/

theorem feed_unopened (begun : Bool) (chunk : ByteArray) :
    (unopened encodings begun done).feed chunk =
        some (unopened encodings true (done ++ chunk.data.toList)) ∨
      chunk.data.toList ≠ [] ∧
        (unopened encodings begun done).feed chunk =
          (unopened encodings true done).push chunk.data.toList := by
  have started : { unopened encodings begun done with begun := true } = unopened encodings true done := rfl
  unfold Stream.feed
  dsimp only
  rw [started, take_unopened]
  generalize (if (unopened encodings begun done).begun = true then 0 else firstCount) = few
  split
  · exact .inl rfl
  · next many =>
      refine .inr ⟨fun empty => many ?_, rfl⟩
      rw [empty]
      exact Nat.zero_le few

theorem splitReturn_snd (bytes : List UInt8) : (splitReturn bytes).2 = [] ∨ (splitReturn bytes).2 = [0x0D] := by
  unfold splitReturn
  split
  · exact .inr rfl
  · exact .inl rfl

/-- What is pushed to a stream that has not opened leaves it as it is or opens it. -/
theorem push_unopened (opens : Opens encodings start standalone head body) {bytes : List UInt8}
    (joined : done ++ bytes ++ rest = head ++ body) :
    (unopened encodings true done).push bytes = some (unopened encodings true (done ++ bytes)) ∨
      ∃ (part : List UInt8) (opened : Stream) (times : Nat), done ++ (splitReturn bytes).1 = head ++ part ∧
        opened.Fresh start standalone part ∧ opened.record.size = (head ++ part).length ∧
        (unopened encodings true done).push bytes =
          (opened.steps false times).map (·.take (splitReturn bytes).2) := by
  have split : done ++ (splitReturn bytes).1 ++ ((splitReturn bytes).2 ++ rest) = head ++ body := by
    rw [List.append_assoc, ← List.append_assoc _ _ rest, append_splitReturn, ← List.append_assoc, joined]
  obtain ⟨times, pushed⟩ : ∃ times, (unopened encodings true done).push bytes =
      (steps false (times + 1) (unopened encodings true (done ++ (splitReturn bytes).1))).map
        (·.take (splitReturn bytes).2) := by
    unfold Stream.push
    dsimp only
    rw [take_unopened]
    exact ⟨_, rfl⟩
  rw [pushed, Stream.steps]
  have step : (unopened encodings true (done ++ (splitReturn bytes).1)).step false =
      (unopened encodings true (done ++ (splitReturn bytes).1)).openText false := rfl
  rw [step]
  rcases opens false split fun final => absurd final Bool.false_ne_true with ⟨-, waits⟩ | ⟨part, opened, front, opensTo, fresh, size⟩
  · left
    rw [waits]
    change some (Stream.take _ _) = _
    rw [take_unopened, List.append_assoc, append_splitReturn]
  · right
    refine ⟨part, opened, times, front, fresh, front ▸ size, ?_⟩
    rw [opensTo]
    rfl

/-- Whether a stream has just opened in a chunk, of which some is left for later, and no line end is cut. -/
structure OpensIn (start : Decoder) (standalone : Bool) (head body : List UInt8) (chunk : ByteArray)
    (chunks : List ByteArray) (part : List UInt8) (opened : Stream) : Prop where
  joined : body = part ++ ((splitReturn chunk.data.toList).2 ++ bytesOf chunks)
  fresh : opened.Fresh start standalone part
  size : opened.record.size = (head ++ part).length
  whole : ¬start.Breaks part ((splitReturn chunk.data.toList).2 ++ bytesOf chunks)
  keeps : KeepsLines [] start (part ++ (splitReturn chunk.data.toList).2) chunks

theorem feed_of_opens (opens : Opens encodings start standalone head body) (begun : Bool) {chunk : ByteArray}
    (keeps : KeepsLines head start done (chunk :: chunks))
    (joined : done ++ bytesOf (chunk :: chunks) = head ++ body) :
    (unopened encodings begun done).feed chunk =
        some (unopened encodings true (done ++ chunk.data.toList)) ∨
      ∃ (part : List UInt8) (opened : Stream) (times : Nat),
        OpensIn start standalone head body chunk chunks part opened ∧
        (unopened encodings begun done).feed chunk =
          (opened.steps false times).map (·.take (splitReturn chunk.data.toList).2) := by
  have joinedToo : done ++ chunk.data.toList ++ bytesOf chunks = head ++ body := by
    rw [List.append_assoc]
    exact joined
  rcases feed_unopened begun chunk with waits | ⟨filled, pushed⟩
  · exact .inl waits
  rw [pushed]
  refine (push_unopened opens joinedToo).imp_right ?_
  rintro ⟨part, opened, times, front, fresh, size, reads⟩
  have behind : done ++ chunk.data.toList = head ++ (part ++ (splitReturn chunk.data.toList).2) := by
    rw [← List.append_assoc, ← front, List.append_assoc, append_splitReturn]
  refine ⟨part, opened, times, ⟨?_, fresh, size, ?_, ?_⟩, reads⟩
  · rw [behind, List.append_assoc, List.append_assoc] at joinedToo
    exact (List.append_cancel_left joinedToo).symm
  · exact keeps [] chunk chunks part rfl filled (by rw [bytesOf, List.flatMap_nil, List.append_nil]; exact front)
  · exact (behind ▸ keeps.tail).behind

/-- A document that has not opened before its last chunk opens where it ends. -/
theorem last?_unopened (opens : Opens encodings start standalone head body) :
    ∃ opened : Stream, opened.Fresh start standalone body ∧ opened.record.size = (head ++ body).length ∧
      (unopened encodings true (head ++ body)).last? = opened.last? := by
  rcases opens true (List.append_nil _) fun _ => rfl with ⟨final, -⟩ | ⟨part, opened, same, opensTo, fresh, size⟩
  · cases final
  · obtain rfl := List.append_cancel_left same
    refine ⟨opened, fresh, size, ?_⟩
    have open? : (unopened encodings true (head ++ body)).open? = opened.open? := by
      have already : opened.open? = some opened := if_neg (fresh.stage ▸ nofun)
      have first : (unopened encodings true (head ++ body)).stage = .opening := rfl
      rw [already, Stream.open?, if_pos first, opensTo]
      rfl
    have begun : (unopened encodings true (head ++ body)).begun = opened.begun := fresh.begun.symm
    unfold Stream.last? Stream.ended?
    rw [open?, begun]

/-! ## All chunks -/

/-- A document tells what the text behind its head tells at once. -/
theorem tellsText_of_feedAll {begun : Bool} {ended : Stream}
    (opens : Opens encodings start standalone head body) (keeps : KeepsLines head start done chunks)
    (joined : done ++ bytesOf chunks = head ++ body)
    (fed : (unopened encodings begun done).feedAll? chunks = some ended) (ran : ended.last? = some last) :
    ∃ text, start.whole? body = some text ∧ TellsText text (head ++ body).length last := by
  induction chunks generalizing begun done with
  | nil =>
      cases fed
      rw [bytesOf, List.flatMap_nil, List.append_nil] at joined
      cases begun with
      | false => cases ran
      | true =>
          obtain ⟨opened, fresh, size, same⟩ := last?_unopened opens
          rw [joined, same] at ran
          obtain ⟨rest, finished, ends⟩ :=
            (last?_eq_some_iff fresh.stands.underway fresh.begun).1 ran
          refine ⟨(start.take body).1 ++ rest, ?_, ?_⟩
          · rw [Decoder.whole?, ← fresh.decoder, finished]
            rfl
          · exact size ▸ fresh.tellsText (.of_ends fresh.stands.underway ends 0)
  | cons chunk chunks ih =>
      obtain ⟨next, fed, onward⟩ := Option.bind_eq_some_iff.1 fed
      rcases feed_of_opens opens begun keeps joined with waits | ⟨part, opened, times, opensIn, reads⟩
      · cases waits.symm.trans fed
        rw [bytesOf, List.flatMap_cons, ← List.append_assoc] at joined
        exact ih keeps.tail joined onward
      obtain ⟨rfl, fresh, size, whole, keepsNext⟩ := opensIn
      obtain ⟨between, read, rfl⟩ := Option.map_eq_some_iff.1 (reads.symm.trans fed)
      have standsNext := (fresh.stands.steps read).take (splitReturn chunk.data.toList).2
      obtain ⟨text, come, tells⟩ := tells_of_feedAll standsNext keepsNext onward ran
      obtain ⟨more, come, tells⟩ := fresh.stands.tells read whole come tells
      refine ⟨(start.take part).1 ++ more, ?_, ?_⟩
      · rw [Decoder.whole?_append, ← fresh.decoder, come]
        rfl
      · rw [← List.append_assoc, List.length_append, ← size, List.length_append]
        exact fresh.tellsText tells

/-- A document is read where the text behind its head is at once, unless a document type may be taken for complete too
early. -/
theorem exists_feedAll_of_ends {begun : Bool} {size : Nat} (opens : Opens encodings start false head body)
    (keeps : KeepsLines head start done chunks) (joined : done ++ bytesOf chunks = head ++ body)
    (come : start.whole? body = some text) (ends : (ofText text size).Ends last)
    (few : last.record.spent ≤ freeCost)
    (calm : ¬"<!DOCTYPE".toList <:+: text ∨ chunks.length ≤ 1 ∧ start.encoding = .utf8)
    (filled : begun = true ∨ chunks ≠ []) :
    ∃ ended finish : Stream,
      (unopened encodings begun done).feedAll? chunks = some ended ∧ ended.last? = some finish := by
  induction chunks generalizing begun done with
  | nil =>
      obtain rfl := filled.resolve_right fun filled => filled rfl
      rw [bytesOf, List.flatMap_nil, List.append_nil] at joined
      obtain ⟨opened, fresh, -, same⟩ := last?_unopened opens
      obtain ⟨rest, finished, rfl⟩ := Option.map_eq_some_iff.1 come
      obtain ⟨finish, ends⟩ := (fresh.finishes rfl ends few).ends fresh.stands.underway
      refine ⟨_, finish, rfl, ?_⟩
      rw [joined, same]
      exact (last?_eq_some_iff fresh.stands.underway fresh.begun).2 ⟨rest, fresh.decoder ▸ finished, ends⟩
  | cons chunk chunks ih =>
      obtain ⟨next, fed, ended, finish, fedAll, ran⟩ : ∃ next, (unopened encodings begun done).feed chunk = some next ∧
          ∃ ended finish : Stream, next.feedAll? chunks = some ended ∧ ended.last? = some finish := by
        rcases feed_of_opens opens begun keeps joined with waits | ⟨part, opened, times, opensIn, reads⟩
        · have calmToo := calm.imp_right (And.imp_left Nat.le_of_succ_le)
          rw [bytesOf, List.flatMap_cons, ← List.append_assoc] at joined
          exact ⟨_, waits, ih keeps.tail joined calmToo (.inl rfl)⟩
        obtain ⟨rfl, fresh, -, whole, keepsNext⟩ := opensIn
        rw [Decoder.whole?_append, ← fresh.decoder] at come
        obtain ⟨more, comeBehind, rfl⟩ := Option.map_eq_some_iff.1 come
        have calmNow : opened.Calm more := by
          rcases calm with absent | ⟨single, utf8⟩
          · exact .inr ⟨fresh.outside, fresh.text ▸ absent⟩
          · obtain rfl : chunks = [] := List.length_eq_zero_iff.1 (Nat.le_zero.1 (Nat.le_of_succ_le_succ single))
            have encoding : opened.decoder.encoding = .utf8 := (congrArg _ fresh.decoder).trans utf8
            rw [bytesOf, List.flatMap_nil, List.append_nil] at comeBehind
            exact .inl (Decoder.not_mem_of_whole?_return encoding (splitReturn_snd _) comeBehind)
        obtain ⟨between, ran, standsNext, _, come, finishes, calm⟩ :=
          fresh.stands.finishes whole comeBehind (fresh.finishes rfl ends few) calmNow times
        exact ⟨_, reads.trans (congrArg _ ran), exists_feedAll standsNext keepsNext come finishes calm⟩
      refine ⟨ended, finish, ?_, ran⟩
      rw [Stream.feedAll?, List.foldlM_cons, fed]
      exact fedAll

end Stream

end WordStream.Markup

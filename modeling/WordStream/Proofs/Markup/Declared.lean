import WordStream.Proofs.Body.Splitting
import WordStream.Proofs.Markup.Openings

/-!
# Documents with a declaration

The declaration of a document is for its bytes, so that a text that is written in UTF-8 is told as another one where
it names another encoding. Whatever it names, the document tells what that other text tells without a declaration.
-/

set_option autoImplicit false

namespace WordStream.Markup

open Reader (freeCost)

namespace Stream

variable {encodings : Encodings} {text : List Char} {chunks : List ByteArray} {last : Stream} {count : Nat}

theorem read?_eq_some_iff {calls : List Call} :
    (Parser.ofEncodings encodings).read? chunks = some calls ↔
      ∃ ended last : Stream, (unopened encodings false []).feedAll? chunks = some ended ∧
        ended.last? = some last ∧ last.told = calls := by
  rw [Parser.read?_ofEncodings]
  constructor
  · intro read
    obtain ⟨ended, fed, closed⟩ := Option.bind_eq_some_iff.1 read
    obtain ⟨last, ran, told⟩ := Option.map_eq_some_iff.1 closed
    exact ⟨ended, last, fed, ran, told⟩
  · rintro ⟨ended, last, fed, ran, rfl⟩
    exact Option.bind_eq_some_iff.2 ⟨ended, fed, Option.map_eq_some_iff.2 ⟨last, ran, rfl⟩⟩

/-! ## Documents without a declaration -/

/-- What tells a text tells nothing else than what tells it too. -/
theorem TellsText.gather_eq {another : Stream} {room : Nat} (tells : TellsText text count last)
    (tellsToo : TellsText text room another) : gather last.told = gather another.told := by
  obtain ⟨finish, ends, -, told⟩ := tells (max count room) (.inr (Nat.le_max_left _ _))
  obtain ⟨other, endsToo, -, toldToo⟩ := tellsToo (max count room) (.inr (Nat.le_max_right _ _))
  cases ends.eq endsToo
  exact told.symm.trans toldToo

theorem TellsText.not_stray (tells : TellsText text count last) : ¬Stray text := by
  obtain ⟨_, ends, -⟩ := tells count (.inr (Nat.le_refl _))
  exact ends.not_stray rfl

theorem tellsText_of_undeclared {ended : Stream} (proper : ¬Stray text)
    (joined : bytesOf chunks = text.flatMap String.utf8EncodeChar)
    (fed : (unopened encodings false []).feedAll? chunks = some ended) (ran : ended.last? = some last) :
    TellsText text (bytesOf chunks).length last := by
  have lines : KeepsLines [] {} [] chunks :=
    keepsLines_of_breaksPlainly (Decoder.breaksPlainly_utf8 text) joined
  obtain ⟨same, come, tells⟩ := tellsText_of_feedAll (opens_undeclared proper) lines joined fed ran
  rw [Decoder.whole?_flatMap_utf8EncodeChar] at come
  cases come
  exact joined ▸ tells

theorem not_ends_nil {size : Nat} : ¬(ofText [] size).Ends last := by
  have waits : (ofText [] size).step true = some none := rfl
  intro ends
  cases ends with
  | finished _ isOver => rcases isOver with epilog | done <;> contradiction
  | onward read => cases waits.symm.trans read

/-- Documents in UTF-8 that have no declaration are read in any chunks, unless a document type may be taken for
complete too early. -/
theorem isSome_read?_of_undeclared {others : List ByteArray} (tells : TellsText text count last)
    (few : last.record.spent ≤ freeCost) (joined : bytesOf others = text.flatMap String.utf8EncodeChar)
    (calm : ¬"<!DOCTYPE".toList <:+: text ∨ others.length ≤ 1) :
    ((Parser.ofEncodings encodings).read? others).isSome = true := by
  obtain ⟨finish, ends, spent, -⟩ := tells 0 (.inl few)
  have filled : others ≠ [] := by
    rintro rfl
    cases text with
    | nil => exact not_ends_nil ends
    | cons first rest =>
        exact Text.utf8EncodeChar_ne_nil first (List.append_eq_nil_iff.1 joined.symm).1
  have lines : KeepsLines [] {} [] others :=
    keepsLines_of_breaksPlainly (Decoder.breaksPlainly_utf8 text) joined
  obtain ⟨ended, last, fed, ran⟩ := exists_feedAll_of_ends (opens_undeclared tells.not_stray) lines joined
    (Decoder.whole?_flatMap_utf8EncodeChar text) ends (spent ▸ few) (calm.imp_right fun single => ⟨single, rfl⟩)
    (.inr filled)
  exact Option.isSome_iff_exists.2 ⟨_, read?_eq_some_iff.2 ⟨ended, last, fed, ran, rfl⟩⟩

theorem TellsText.spent_eq_zero (tells : TellsText text count last) (plain : ¬"<!DOCTYPE".toList <:+: text) :
    last.record.spent = 0 := by
  obtain ⟨finish, ends, spent, -⟩ := tells count (.inr (Nat.le_refl _))
  have undoctyped : (ofText text count).Undoctyped :=
    { opened := nofun
      outside := nofun
      bare := ⟨rfl, rfl⟩
      absent := fun _ => plain }
  exact spent.symm.trans (ends.spent_eq undoctyped)

/-! ## Documents with a declaration -/

variable {declaration : Declaration} {encoding : Encoding} {head rest : String} {noted : Record}

/-- A document with a declaration is read as the text is that the encoding which it names makes of the bytes behind
it. -/
theorem tellsText_of_declared {ended : Stream}
    (scanned : Declaration.scan (head ++ rest).toList {} = some ((declaration, rest.toList), noted))
    (named : declaration.encoding.elim (some .utf8) encodings.ofName? = some encoding)
    (joined : bytesOf chunks = (head ++ rest).toUTF8.data.toList)
    (lines : KeepsLines head.toUTF8.data.toList { encoding } [] chunks)
    (fed : (unopened encodings false []).feedAll? chunks = some ended) (ran : ended.last? = some last) :
    ∃ text, Decoder.whole? { encoding } rest.toUTF8.data.toList = some text ∧
      TellsText text (bytesOf chunks).length last := by
  have closing : Scan.Closing '>' Declaration.scan := inferInstance
  rw [String.toList_append] at scanned
  have alone : Declaration.scan head.toList {} = some ((declaration, []), noted) :=
    (closing.lasts rest.toList).1 scanned
  have split : bytesOf chunks = head.toUTF8.data.toList ++ rest.toUTF8.data.toList := by
    rw [joined, Text.toList_toUTF8, Text.toList_toUTF8, Text.toList_toUTF8, String.toList_append, List.flatMap_append]
  have opens : Opens encodings { encoding } declaration.standalone head.toUTF8.data.toList rest.toUTF8.data.toList :=
    Text.toList_toUTF8 head ▸ opens_declared alone named
  obtain ⟨text, come, tells⟩ := tellsText_of_feedAll opens lines split fed ran
  exact ⟨text, come, split ▸ tells⟩

end Stream

/-- In the encodings of the standard parser a line end can only be cut where its two bytes are. -/
theorem breaksPlainly_of_standard {name? : Option String} {encoding : Encoding}
    (named : name?.elim (some .utf8) Encodings.standard.ofName? = some encoding) (rest : String) :
    Decoder.BreaksPlainly { encoding } rest.toUTF8.data.toList := by
  have kinds : encoding = .utf8 ∨ encoding = .latin1 ∨ encoding = .ascii := by
    cases name? with
    | none => exact .inl (Option.some.inj named).symm
    | some name =>
        obtain ⟨_, _, same, -⟩ := List.lookup_eq_some_iff.1 named
        have member : (name.map Char.toUpper, encoding) ∈ Encodings.names :=
          same ▸ List.mem_append_right _ List.mem_cons_self
        simp only [Encodings.names, List.mem_cons, Prod.mk.injEq, List.not_mem_nil] at member
        tauto
  have returns : ∀ byte : UInt8, Char.ofNat byte.toNat = '\r' → byte = 0x0D := by
    intro byte same
    have valid : byte.toNat.isValidChar := .inl (Nat.lt_trans byte.toNat_lt (by decide))
    have code : (Char.ofNat byte.toNat).toNat = byte.toNat := by
      rw [Char.ofNat, dif_pos valid]
      rfl
    rw [same] at code
    exact UInt8.toNat_inj.1 code.symm
  rcases kinds with rfl | rfl | rfl
  · rw [Text.toList_toUTF8]
    exact Decoder.breaksPlainly_utf8 _
  · exact Decoder.breaksPlainly_table returns _
  · refine Decoder.breaksPlainly_table (fun byte same => ?_) _
    split at same
    · exact returns byte same
    · cases same

/-- A word with letters that are not of ASCII, in a paragraph of a body. -/
def greeting : String :=
  "<w:document xmlns:w=\"http://schemas.openxmlformats.org/wordprocessingml/2006/main\"><w:body>" ++
    "<w:p><w:r><w:t>Grüße</w:t></w:r></w:p></w:body></w:document>"

/-- The calls that tell a word in a paragraph of a body. -/
def greetingCalls (word : String) : List Call :=
  let tags := ["document", "body", "p", "r", "t"].map
    (joinName "http://schemas.openxmlformats.org/wordprocessingml/2006/main")
  tags.map (.start · []) ++ .data word :: tags.reverse.map .finish

def latinDeclaration : String := "<?xml version=\"1.0\" encoding=\"ISO-8859-1\"?>"

end WordStream.Markup

import WordStream.Input.Source
import WordStream.Proofs.Input.Base64

/-!
# What sources give

Whatever is handed in, what comes of it begins as the bytes of an archive do. Files have a limit on their
size, and base64 texts have one on their length, which is wide enough for every file within the limit
of files and lets some more bytes through.
-/

set_option autoImplicit false

namespace WordStream.Input

variable {files : Files} {bytes : ByteArray}

/-! ## Bytes that are accepted -/

/-- Whether bytes begin as those of an archive do. -/
def BeginsAsArchive (bytes : ByteArray) : Prop :=
  [0x50, 0x4B] <+: bytes.data.toList

theorem BeginsAsArchive.size_ne_zero (begins : BeginsAsArchive bytes) : bytes.size ≠ 0 := by
  have length := begins.length_le
  rw [List.length_cons, List.length_singleton, Array.length_toList] at length
  exact Nat.ne_of_gt (Nat.lt_of_lt_of_le (Nat.zero_lt_succ 1) length)

theorem checkBytes_eq_ok_iff {given : ByteArray} :
    checkBytes bytes = .ok given ↔ given = bytes ∧ BeginsAsArchive bytes := by
  have front : (bytes.extract 0 2).data.toList = [0x50, 0x4B] ↔ BeginsAsArchive bytes := by
    rw [ByteArray.data_extract, Array.toList_extract, List.extract_eq_take_drop, List.drop_zero,
      BeginsAsArchive, List.prefix_iff_eq_take, eq_comm]
    rfl
  unfold checkBytes
  split
  · next empty =>
      refine iff_of_false (fun taken => nomatch taken) ?_
      rintro ⟨-, begins⟩
      exact begins.size_ne_zero empty
  · split
    · next begins => rw [Except.ok.injEq, eq_comm, and_iff_left (front.1 begins)]
    · next other => exact iff_of_false (fun taken => nomatch taken) fun both => other (front.2 both.2)

/-! ## Files -/

theorem ok_of_guard {condition : Prop} [Decidable condition] {fault : Fault}
    {onward : Unit → Except Fault ByteArray}
    (passed : (if condition then throw fault >>= onward else onward ()) = .ok bytes) :
    onward () = .ok bytes := by
  split at passed
  · cases passed
  · exact passed

theorem File.size_addZeros (count : Nat) (bytes : ByteArray) :
    (addZeros count bytes).size = bytes.size + count := by
  induction count generalizing bytes with
  | zero => rfl
  | succ count ih =>
      rw [addZeros, ih, ByteArray.size_push]
      omega

theorem File.size_bytes (file : File) : file.bytes.size = file.size := by
  rw [bytes, size_addZeros, ByteArray.size_extract]
  omega

theorem of_readFile {path : Path} {file : File} (given : readFile path file = .ok bytes) :
    BeginsAsArchive bytes ∧ bytes.size ≤ maxFileSize := by
  unfold readFile at given
  have named := ok_of_guard given
  have within : file.size ≤ maxFileSize := by
    refine Nat.le_of_not_lt fun exceeds => ?_
    dsimp only at named
    rw [if_pos exceeds] at named
    cases named
  have legible := ok_of_guard named
  dsimp only at legible
  split at legible
  · cases legible
  · obtain ⟨rfl, begins⟩ := checkBytes_eq_ok_iff.1 legible
    exact ⟨begins, file.size_bytes ▸ within⟩

theorem exists_file_of_fromPath {text : String} (given : fromPath files text = .ok bytes) :
    ∃ path file, readFile path file = .ok bytes := by
  unfold fromPath readPath at given
  repeat' split at given
  all_goals first | exact ⟨_, _, given⟩ | cases given

theorem of_fromPath {text : String} (given : fromPath files text = .ok bytes) :
    BeginsAsArchive bytes ∧ bytes.size ≤ maxFileSize := by
  obtain ⟨path, file, read⟩ := exists_file_of_fromPath given
  exact of_readFile read

/-! ## Base64 texts -/

theorem fromText_eq_ok_iff {text : String} :
    fromText text = .ok bytes ↔
      text.length ≤ maxTextLength ∧ Base64.read? text = some bytes ∧ BeginsAsArchive bytes := by
  unfold fromText
  split
  · next long =>
      refine iff_of_false (fun taken => nomatch taken) ?_
      rintro ⟨short, -⟩
      exact Nat.not_le_of_lt long short
  · next short =>
      rw [and_iff_right (Nat.le_of_not_lt short)]
      cases read : Base64.read? text with
      | none => simp
      | some found =>
          rw [Option.some.injEq]
          refine checkBytes_eq_ok_iff.trans ⟨?_, ?_⟩
          · rintro ⟨rfl, begins⟩
            exact ⟨rfl, begins⟩
          · rintro ⟨rfl, begins⟩
            exact ⟨rfl, begins⟩

theorem fromText_textOf (begins : BeginsAsArchive bytes)
    (short : (Base64.textOf bytes).length ≤ maxTextLength) :
    fromText (Base64.textOf bytes) = .ok bytes :=
  fromText_eq_ok_iff.2 ⟨short, Base64.read?_textOf bytes, begins⟩

theorem fromText_of_unread {text : String} (short : text.length ≤ maxTextLength)
    (unread : Base64.read? text = none) : fromText text = .error .badText := by
  rw [fromText, if_neg (Nat.not_lt_of_le short), unread]

theorem textOf_ne_empty (begins : BeginsAsArchive bytes) : Base64.textOf bytes ≠ "" := by
  intro empty
  have length := Base64.length_textOf bytes
  rw [empty, String.length_empty] at length
  have filled := begins.size_ne_zero
  omega

/-! ## Both ways -/

namespace Source

variable {source : Source}

theorem bytes_of_path (named : source.path ≠ "") : source.bytes files = fromPath files source.path := by
  have filled : source.path.isEmpty = false := by
    rw [Bool.eq_false_iff]
    exact mt String.isEmpty_iff.1 named
  rw [bytes, filled]
  rfl

theorem bytes_of_text (unnamed : source.path = "") (filled : source.text ≠ "") :
    source.bytes files = fromText source.text := by
  have filled : source.text.isEmpty = false := by
    rw [Bool.eq_false_iff]
    exact mt String.isEmpty_iff.1 filled
  rw [bytes, unnamed, filled]
  rfl

theorem bytes_of_nothing (unnamed : source.path = "") (empty : source.text = "") :
    source.bytes files = .error .missing := by
  rw [bytes, unnamed, empty]
  rfl

theorem bytes_textOf (begins : BeginsAsArchive bytes)
    (short : (Base64.textOf bytes).length ≤ maxTextLength) :
    Source.bytes { text := Base64.textOf bytes } files = .ok bytes := by
  rw [bytes_of_text rfl (textOf_ne_empty begins)]
  exact fromText_textOf begins short

end Source

/-- What is handed in begins as an archive does and is not empty. A file has no more bytes than the limit of
files, and a base64 text gives no more than three bytes for four of its characters, whose number has a
limit of its own. That limit lets every file within the limit of files through. -/
theorem size_of_given (files : Files) :
    (∀ (source : Source) (bytes : ByteArray), source.bytes files = .ok bytes →
        bytes.size ≠ 0 ∧ BeginsAsArchive bytes ∧
          (source.path ≠ "" → bytes.size ≤ maxFileSize) ∧
          (source.path = "" →
            4 * bytes.size ≤ 3 * source.text.length ∧ source.text.length ≤ maxTextLength)) ∧
      ∀ bytes : ByteArray, BeginsAsArchive bytes → bytes.size ≤ maxFileSize →
        Source.bytes { text := Base64.textOf bytes } files = .ok bytes := by
  constructor
  · intro source bytes given
    by_cases unnamed : source.path = ""
    · by_cases empty : source.text = ""
      · rw [Source.bytes_of_nothing unnamed empty] at given
        cases given
      · rw [Source.bytes_of_text unnamed empty, fromText_eq_ok_iff] at given
        obtain ⟨short, read, begins⟩ := given
        exact ⟨begins.size_ne_zero, begins, fun named => absurd unnamed named,
          fun _ => ⟨Base64.size_le_of_read? read, short⟩⟩
    · rw [Source.bytes_of_path unnamed] at given
      obtain ⟨begins, small⟩ := of_fromPath given
      exact ⟨begins.size_ne_zero, begins, fun _ => small, fun named => absurd named unnamed⟩
  · intro bytes begins small
    refine Source.bytes_textOf begins ?_
    rw [Base64.length_textOf]
    unfold maxFileSize at small
    unfold maxTextLength
    omega

/-- The text of three bytes of a document, any number of times over. -/
def repeatedText (count : Nat) : String :=
  String.ofList (List.replicate count "UEtQ".toList).flatten

/-- The bytes that such a text stands for. -/
def repeatedBytes (count : Nat) : ByteArray :=
  ⟨(List.replicate count [0x50, 0x4B, 0x50]).flatten.toArray⟩

/-- A document of three bytes in a file. -/
def smallFiles : Files where
  files := [(["tmp", "a.docx"], { content := repeatedBytes 1, size := 3 })]

theorem size_of_smallSources :
    Source.bytes { path := "/tmp/a.docx" } smallFiles = .ok (repeatedBytes 1) ∧
      (repeatedBytes 1).size ≤ maxFileSize ∧
      Source.bytes { text := "UEtQ" } smallFiles = .ok (repeatedBytes 1) ∧
      4 * (repeatedBytes 1).size ≤ 3 * "UEtQ".length ∧
      Source.bytes { text := Base64.textOf (repeatedBytes 1) } smallFiles = .ok (repeatedBytes 1) := by
  have fromFile : Source.bytes { path := "/tmp/a.docx" } smallFiles = .ok (repeatedBytes 1) := by
    decide +kernel
  have fromText : Source.bytes { text := "UEtQ" } smallFiles = .ok (repeatedBytes 1) := by
    decide +kernel
  obtain ⟨limits, passes⟩ := size_of_given smallFiles
  obtain ⟨-, begins, small, -⟩ := limits _ _ fromFile
  obtain ⟨-, -, -, few⟩ := limits _ _ fromText
  exact ⟨fromFile, small (by decide), fromText, (few rfl).1, passes _ begins (small (by decide))⟩

theorem textOf_repeatedBytes (count : Nat) :
    Base64.textOf (repeatedBytes count) = repeatedText count := by
  have written : ∀ count : Nat,
      Base64.writeAfter [] (List.replicate count [0x50, 0x4B, 0x50]).flatten =
        (List.replicate count "UEtQ".toList).flatten := by
    intro count
    induction count with
    | zero => rfl
    | succ count ih =>
        rw [List.replicate_succ, List.flatten_cons, List.replicate_succ, List.flatten_cons, ← ih]
        exact Base64.writeAfter_three 0x50 0x4B 0x50 _
  rw [← Base64.write_eq_textOf, Base64.write, repeatedText, ← written]
  rfl

theorem size_repeatedBytes (count : Nat) : (repeatedBytes count).size = 3 * count := by
  have length : ∀ count : Nat,
      (List.replicate count ([0x50, 0x4B, 0x50] : List UInt8)).flatten.length = 3 * count := by
    intro count
    induction count with
    | zero => rfl
    | succ count ih =>
        rw [List.replicate_succ, List.flatten_cons, List.length_append, ih]
        exact Nat.add_comm 3 (3 * count)
  exact length count

theorem beginsAsArchive_repeatedBytes (count : Nat) : BeginsAsArchive (repeatedBytes (count + 1)) :=
  ⟨[0x50] ++ (List.replicate count [0x50, 0x4B, 0x50]).flatten, by
    rw [repeatedBytes, List.replicate_succ, List.flatten_cons]
    rfl⟩

/-- A text of bytes of which there is one more than the limit of files. -/
theorem bytes_repeatedText :
    ∃ bytes, Source.bytes { text := repeatedText 17476267 } {} = .ok bytes ∧
      bytes.size = maxFileSize + 1 := by
  refine ⟨repeatedBytes 17476267, ?_, size_repeatedBytes 17476267⟩
  rw [← textOf_repeatedBytes]
  refine Source.bytes_textOf (beginsAsArchive_repeatedBytes 17476266) ?_
  rw [Base64.length_textOf, size_repeatedBytes]
  decide

/-! ## Strictness -/

/-- Bytes that begin as an archive does are given back by their base64 text, if that is not too long. A text with
a character that is neither a letter of base64 nor an equals sign gives none, and neither does one in
which something else follows an equals sign. -/
theorem bytes_of_base64 (files : Files) :
    (∀ bytes : ByteArray, BeginsAsArchive bytes →
        (Base64.textOf bytes).length ≤ maxTextLength →
          Source.bytes { text := Base64.textOf bytes } files = .ok bytes) ∧
      ∀ text : String, text ≠ "" → text.length ≤ maxTextLength →
        ((∃ character ∈ text.toList, character ∉ Base64.alphabet ∧ character ≠ '=') ∨
          ∃ (front middle back : List Char) (character : Char),
            text.toList = front ++ '=' :: (middle ++ character :: back) ∧ character ≠ '=') →
          Source.bytes { text } files = .error .badText := by
  refine ⟨fun bytes begins short => Source.bytes_textOf begins short, ?_⟩
  intro text filled short bad
  rw [Source.bytes_of_text rfl filled]
  refine fromText_of_unread short ?_
  rcases bad with ⟨character, member, foreign, other⟩ | ⟨front, middle, back, character, split, other⟩
  · exact Base64.read?_of_foreign member foreign other
  · exact Base64.read?_of_misplaced split other

theorem bytes_of_spoiltTexts :
    BeginsAsArchive (repeatedBytes 2) ∧
      Source.bytes { text := Base64.textOf (repeatedBytes 2) } {} = .ok (repeatedBytes 2) ∧
      Source.bytes { text := "UEtQ\nUEtQ" } {} = .error .badText ∧
      Source.bytes { text := "UEs=UEtQ" } {} = .error .badText := by
  obtain ⟨given, refused⟩ := bytes_of_base64 {}
  have begins := beginsAsArchive_repeatedBytes 1
  refine ⟨begins, given _ begins (by decide +kernel), ?_, ?_⟩
  · refine refused _ (by decide) (by decide) (.inl ⟨'\n', by decide, ?_, by decide⟩)
    decide +kernel
  · exact refused _ (by decide) (by decide)
      (.inr ⟨"UEs".toList, [], "EtQ".toList, 'U', by decide, by decide⟩)

end WordStream.Input

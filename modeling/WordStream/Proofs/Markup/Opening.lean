import WordStream.Proofs.Markup.Decoding
import WordStream.Proofs.Markup.Keeping

/-!
# Openings with a declaration

A declaration is made of characters of ASCII, so that as many bytes as it has characters belong to it, and ends with
its first mark of an end. What follows it is read in the encoding that it names.
-/

set_option autoImplicit false

namespace WordStream.Markup

/-- Whether a character may stand in a declaration before its end. -/
def IsPlain (character : Char) : Prop := character.toNat < 0x80 ∧ character ≠ '>'

instance (character : Char) : Decidable (IsPlain character) :=
  inferInstanceAs (Decidable (_ ∧ _))

theorem isPlain_of_all {text : List Char}
    (ascii : (text.all fun character => decide (IsPlain character)) = true) :
    ∀ character ∈ text, IsPlain character := fun character member =>
  of_decide_eq_true (List.all_eq_true.1 ascii character member)

/-! ## What scans take -/

namespace Scan

variable {α β : Type} {scan : Scan α}

/-- Whether a scan takes only characters that are allowed, which may depend on the value it gives. -/
def Takes (scan : Scan α) (allowed : α → Char → Prop) : Prop :=
  ∀ (text : List Char) (record : Record) (value : α) (left : List Char) (later : Record),
    scan text record = some ((value, left), later) →
      ∃ front, text = front ++ left ∧ ∀ character ∈ front, allowed value character

/-- Whether a scan takes only plain characters, and a mark after them. -/
def TakesTo (scan : Scan α) (mark : List Char) : Prop :=
  ∀ (text : List Char) (record : Record) (value : α) (left : List Char) (later : Record),
    scan text record = some ((value, left), later) →
      ∃ front, text = front ++ (mark ++ left) ∧ ∀ character ∈ front, IsPlain character

/-- Whether a scan takes only plain characters. -/
abbrev TakesPlain (scan : Scan α) : Prop := scan.TakesTo []

theorem Takes.bind {onward : α → Scan β} {allowed : β → Char → Prop} (first : scan.TakesPlain)
    (next : ∀ value, (onward value).Takes allowed)
    (plain : ∀ value character, IsPlain character → allowed value character) :
    (scan >>= onward).Takes allowed := by
  intro text record value left later taken
  obtain ⟨middle, rest, between, takenFirst, takenNext⟩ := bind_eq_some_iff.1 taken
  obtain ⟨front, rfl, ascii⟩ := first _ _ _ _ _ takenFirst
  obtain ⟨back, rfl, within⟩ := next middle _ _ _ _ _ takenNext
  refine ⟨front ++ back, by rw [List.append_assoc, List.nil_append], fun character member => ?_⟩
  rcases List.mem_append.1 member with member | member
  · exact plain value character (ascii character member)
  · exact within character member

theorem TakesTo.bind {onward : α → Scan β} {mark : List Char} (first : scan.TakesPlain)
    (next : ∀ value, (onward value).TakesTo mark) : (scan >>= onward).TakesTo mark := by
  intro text record value left later taken
  obtain ⟨middle, rest, between, takenFirst, takenNext⟩ := bind_eq_some_iff.1 taken
  obtain ⟨front, rfl, ascii⟩ := first _ _ _ _ _ takenFirst
  obtain ⟨back, rfl, asciiNext⟩ := next middle _ _ _ _ _ takenNext
  exact ⟨front ++ back, by rw [List.append_assoc, List.nil_append],
    List.forall_mem_append.2 ⟨ascii, asciiNext⟩⟩

theorem TakesTo.of_exact {onward : Unit → Scan α} {opening : String} {mark : List Char}
    (next : ∀ value, (onward value).TakesTo mark) {text left : List Char} {value : α}
    {record later : Record}
    (taken : (exact opening >>= onward) text record = some ((value, left), later)) :
    ∃ middle, text = opening.toList ++ (middle ++ (mark ++ left)) ∧
      ∀ character ∈ middle, IsPlain character := by
  obtain ⟨_, rest, _, opened, takenNext⟩ := bind_eq_some_iff.1 taken
  obtain ⟨middle, rfl, ascii⟩ := next _ _ _ _ _ _ takenNext
  exact ⟨middle, exact_eq_some opened, ascii⟩

theorem TakesTo.ite {condition : Prop} [Decidable condition] {other : Scan α} {mark : List Char}
    (whenTrue : scan.TakesTo mark) (whenFalse : other.TakesTo mark) :
    (if condition then scan else other).TakesTo mark := by
  split
  · exact whenTrue
  · exact whenFalse

/-- What takes nothing takes nothing that is not allowed. -/
theorem takesPlain_of_left_eq
    (same : ∀ text record value left later, scan text record = some ((value, left), later) →
      left = text) : scan.TakesPlain := by
  intro text record value left later taken
  obtain rfl := same _ _ _ _ _ taken
  exact ⟨[], rfl, fun _ member => nomatch member⟩

theorem takesPlain_pure (value : α) : (pure value : Scan α).TakesPlain := by
  refine takesPlain_of_left_eq fun text record _ left later taken => ?_
  cases taken
  rfl

theorem takesPlain_guard (condition : Prop) [Decidable condition] :
    (guard condition : Scan Unit).TakesPlain := by
  refine takesPlain_of_left_eq fun text record _ left later taken => ?_
  rw [guard_run] at taken
  split at taken
  · cases taken
    rfl
  · cases taken

theorem takesPlain_at? (mark : String) : (at? mark).TakesPlain := by
  refine takesPlain_of_left_eq fun text record _ left later taken => ?_
  cases taken
  rfl

theorem takesPlain_liftM (reader : Reader α) : (liftM reader : Scan α).TakesPlain := by
  refine takesPlain_of_left_eq fun text record _ left later taken => ?_
  rw [liftM_run] at taken
  obtain ⟨result, -, rest⟩ := Option.map_eq_some_iff.1 taken
  cases rest
  rfl

theorem takesPlain_exact {mark : String} (ascii : ∀ character ∈ mark.toList, IsPlain character) :
    (exact mark).TakesPlain := by
  intro text record value left later taken
  rw [exact_run] at taken
  obtain ⟨rest, dropped, same⟩ := Option.map_eq_some_iff.1 taken
  cases same
  exact ⟨mark.toList, dropExact?_eq_some_iff.1 dropped, ascii⟩

theorem isPlain_of_isSpace {character : Char} (space : isSpace character = true) :
    IsPlain character := by
  simp only [isSpace, Bool.or_eq_true, decide_eq_true_iff] at space
  rcases space with ((rfl | rfl) | rfl) | rfl <;> unfold IsPlain <;> decide

theorem takesPlain_someSpaceTaken : someSpaceTaken.TakesPlain := by
  refine TakesTo.bind ?_ fun _ => takesPlain_pure _
  intro text record value left later taken
  rw [takeWhile_run] at taken
  cases taken
  refine ⟨text.takeWhile isSpace, List.takeWhile_append_dropWhile.symm, fun character member => ?_⟩
  exact isPlain_of_isSpace (List.all_eq_true.1 List.all_takeWhile character member)

theorem takesPlain_space : space.TakesPlain := by
  rw [space, discard_eq_bind]
  exact TakesTo.bind takesPlain_someSpaceTaken fun _ => takesPlain_pure _

theorem takesPlain_someSpace : someSpace.TakesPlain :=
  TakesTo.bind takesPlain_someSpaceTaken fun _ => takesPlain_guard _

/-- A quoted text is taken with its quotes. -/
theorem takes_quoted :
    quoted.Takes fun value character => IsPlain character ∨ character ∈ value := by
  have upTo : ∀ mark : String, (∀ character ∈ mark.toList, IsPlain character) →
      (upTo mark).Takes fun value character => IsPlain character ∨ character ∈ value := by
    intro mark ascii text record value left later taken
    rw [upTo_run] at taken
    obtain ⟨⟨found, rest⟩, split, same⟩ := Option.map_eq_some_iff.1 taken
    cases same
    obtain ⟨_, rfl, rfl⟩ := eq_append_of_splitAt? split
    refine ⟨found ++ mark.toList, (List.append_assoc ..).symm, fun character member => ?_⟩
    rcases List.mem_append.1 member with member | member
    · exact .inr member
    · exact .inl (ascii character member)
  refine Takes.bind ?_ (fun double => ?_) fun _ _ => .inl
  · intro text record value left later taken
    rw [taken_run] at taken
    split at taken
    · next rest dropped =>
        cases taken
        exact ⟨_, dropExact?_eq_some_iff.1 dropped, isPlain_of_all (by decide)⟩
    · cases taken
      exact ⟨[], rfl, List.forall_mem_nil _⟩
  · cases double with
    | true => exact upTo _ (isPlain_of_all (by decide))
    | false =>
        refine Takes.bind (takesPlain_exact (isPlain_of_all (by decide))) (fun _ => ?_) fun _ _ => .inl
        exact upTo _ (isPlain_of_all (by decide))

/-- A text that is checked is plain if what the check accepts is. -/
theorem Takes.guarded {scan : Scan (List Char)} {accept : List Char → Bool} {mark : List Char}
    {onward : List Char → Unit → Scan β}
    (first : scan.Takes fun value character => IsPlain character ∨ character ∈ value)
    (ascii : ∀ value, accept value = true → ∀ character ∈ value, IsPlain character)
    (next : ∀ value checked, (onward value checked).TakesTo mark) :
    (scan >>= fun value => guard (accept value = true) >>= onward value).TakesTo mark := by
  intro text record value left later taken
  obtain ⟨found, rest, between, takenFirst, takenNext⟩ := bind_eq_some_iff.1 taken
  obtain ⟨checked, same, _, passed, takenNext⟩ := bind_eq_some_iff.1 takenNext
  rw [guard_run] at passed
  split at passed
  · next accepted =>
      cases passed
      obtain ⟨front, rfl, within⟩ := first _ _ _ _ _ takenFirst
      obtain ⟨back, rfl, plain⟩ := next found () _ _ _ _ _ takenNext
      refine ⟨front ++ back, (List.append_assoc ..).symm, List.forall_mem_append.2 ⟨?_, plain⟩⟩
      exact fun character member =>
        (within character member).elim id (ascii found accepted character)
  · cases passed

end Scan

/-! ## Declarations -/

namespace Declaration

open Scan

theorem isPlain_of_isAlphanum {character : Char} (plain : character.isAlphanum = true) :
    IsPlain character := by
  have ranges : character.isAlphanum =
      ((decide ('A'.val ≤ character.val ∧ character.val ≤ 'Z'.val) ||
          (decide ('a'.val ≤ character.val) && decide (character.val ≤ 'z'.val))) ||
        (decide ('0'.val ≤ character.val) && decide (character.val ≤ '9'.val))) := rfl
  simp only [ranges, Bool.or_eq_true, Bool.and_eq_true, decide_eq_true_iff,
    UInt32.le_iff_toNat_le, Char.reduceVal, UInt32.reduceToNat] at plain
  have code : character.toNat = character.val.toNat := rfl
  refine ⟨by omega, ?_⟩
  rintro rfl
  revert plain
  decide

theorem isPlain_of_isVersion {value : List Char} (version : isVersion value = true) :
    ∀ character ∈ value, IsPlain character := by
  unfold isVersion at version
  split at version
  · next digits =>
      rw [List.forall_mem_cons, List.forall_mem_cons]
      refine ⟨by decide, by decide, fun character member => ?_⟩
      have digit := List.all_eq_true.1 version character member
      exact isPlain_of_isAlphanum (by rw [Char.isAlphanum, digit, Bool.or_true])
  · cases version

theorem isPlain_of_isEncodingName {value : List Char} (named : isEncodingName value = true) :
    ∀ character ∈ value, IsPlain character := by
  unfold isEncodingName at named
  split at named
  · cases named
  · next first others =>
      rw [Bool.and_eq_true] at named
      rw [List.forall_mem_cons]
      refine ⟨isPlain_of_isAlphanum (by rw [Char.isAlphanum, named.1, Bool.true_or]), ?_⟩
      intro character member
      have part := List.all_eq_true.1 named.2 character member
      simp only [Bool.or_eq_true, decide_eq_true_iff] at part
      rcases part with ((plain | rfl) | rfl) | rfl
      · exact isPlain_of_isAlphanum plain
      all_goals decide

theorem takes_setting {label : String} (ascii : ∀ character ∈ label.toList, IsPlain character) :
    (setting label).Takes fun value character => IsPlain character ∨ character ∈ value := by
  refine Takes.bind (takesPlain_exact ascii) (fun _ => ?_) fun _ _ => .inl
  refine Takes.bind takesPlain_space (fun _ => ?_) fun _ _ => .inl
  refine Takes.bind (takesPlain_exact (isPlain_of_all (by decide))) (fun _ => ?_) fun _ _ => .inl
  exact Takes.bind takesPlain_space (fun _ => takes_quoted) fun _ _ => .inl

theorem takesPlain_encodingSetting : encodingSetting.TakesPlain := by
  refine TakesTo.bind (takesPlain_at? _) fun _ => TakesTo.ite ?_ (takesPlain_pure _)
  exact Takes.guarded (takes_setting (isPlain_of_all (by decide))) (fun _ => isPlain_of_isEncodingName)
    fun _ _ => takesPlain_pure _

theorem takesPlain_standaloneSetting : standaloneSetting.TakesPlain := by
  refine TakesTo.bind (takesPlain_at? _) fun _ => TakesTo.ite ?_ (takesPlain_pure _)
  refine Takes.guarded (takes_setting (isPlain_of_all (by decide))) (fun value answer => ?_)
    fun _ _ => takesPlain_pure _
  rw [Bool.or_eq_true, decide_eq_true_iff, decide_eq_true_iff] at answer
  rcases answer with rfl | rfl <;> exact isPlain_of_all (by decide)

/-! ### A declaration, setting by setting -/

def closing (encoding : Option String) (standalone : Bool) : Scan Declaration := do
  Scan.space
  Scan.exact "?>"
  return { encoding, standalone }

/-- Takes what is left of a declaration past its encoding, given whether white space stood before that. -/
def pastEncoding (separated : Bool) (encoding : Option String) : Scan Declaration := do
  let separatedAgain ← Scan.someSpaceTaken
  let standalone ←
    if separatedAgain || (separated && encoding.isNone) then standaloneSetting else pure false
  closing encoding standalone

def pastVersion : Scan Declaration := do
  let separated ← Scan.someSpaceTaken
  let encoding ← if separated then encodingSetting else pure none
  pastEncoding separated encoding

theorem scan_eq :
    scan = (do
      Scan.exact "<?xml"
      Scan.someSpace
      let version ← setting "version"
      guard (isVersion version)
      if version != "1.0".toList then Reader.warn
      pastVersion) := rfl

theorem takesTo_closing (encoding : Option String) (standalone : Bool) :
    (closing encoding standalone).TakesTo "?>".toList := by
  refine TakesTo.bind takesPlain_space fun _ => ?_
  intro text record value left later taken
  obtain ⟨_, _, _, closed, given⟩ := bind_eq_some_iff.1 taken
  cases given
  exact ⟨[], exact_eq_some closed, fun _ member => nomatch member⟩

theorem takesTo_pastEncoding (separated : Bool) (encoding : Option String) :
    (pastEncoding separated encoding).TakesTo "?>".toList :=
  TakesTo.bind takesPlain_someSpaceTaken fun _ =>
    TakesTo.ite (TakesTo.bind takesPlain_standaloneSetting (takesTo_closing encoding))
      (TakesTo.bind (takesPlain_pure _) (takesTo_closing encoding))

theorem takesTo_pastVersion : pastVersion.TakesTo "?>".toList :=
  TakesTo.bind takesPlain_someSpaceTaken fun separated =>
    TakesTo.ite (TakesTo.bind takesPlain_encodingSetting (takesTo_pastEncoding separated))
      (TakesTo.bind (takesPlain_pure _) (takesTo_pastEncoding separated))

/-- A declaration stands between its marks, and all characters between them are plain. -/
theorem takesTo_scan {text left : List Char} {record later : Record} {declaration : Declaration}
    (taken : scan text record = some ((declaration, left), later)) :
    ∃ middle, text = "<?xml".toList ++ (middle ++ ("?>".toList ++ left)) ∧
      ∀ character ∈ middle, IsPlain character := by
  rw [scan_eq] at taken
  refine TakesTo.of_exact (fun _ => ?_) taken
  refine TakesTo.bind takesPlain_someSpace fun _ => ?_
  refine Takes.guarded (takes_setting (isPlain_of_all (by decide))) (fun _ => isPlain_of_isVersion) fun _ _ => ?_
  exact TakesTo.ite (TakesTo.bind (takesPlain_liftM _) fun _ => takesTo_pastVersion) takesTo_pastVersion

/-- White space stands behind the opening mark of a declaration. -/
theorem begins_of_scan {text left : List Char} {record later : Record} {declaration : Declaration}
    (taken : scan text record = some ((declaration, left), later)) : begins text = true := by
  obtain ⟨_, rest, _, opened, taken⟩ := bind_eq_some_iff.1 taken
  obtain ⟨_, _, _, spaced, -⟩ := bind_eq_some_iff.1 taken
  obtain ⟨separated, between, _, spaced, passed⟩ := bind_eq_some_iff.1 spaced
  have dropped : dropExact? "<?xml".toList text = some rest :=
    dropExact?_eq_some_iff.2 (exact_eq_some opened)
  rw [guard_run] at passed
  split at passed
  · next some =>
      obtain ⟨blanks, _, _, blank, given⟩ := bind_eq_some_iff.1 spaced
      rw [takeWhile_run] at blank
      cases blank
      cases given
      unfold begins
      rw [dropped]
      cases rest with
      | nil => simp at some
      | cons first rest =>
          cases space : isSpace first with
          | true => exact space
          | false => simp [space] at some
  · cases passed

/-! ### A declaration in front of a text -/

instance : Mark "encoding" := ⟨by decide, by decide⟩

instance : Mark "standalone" := ⟨by decide, by decide⟩

instance (label : String) : Steady (setting label) := by
  unfold setting
  infer_instance

instance : Steady encodingSetting := by
  unfold encodingSetting
  infer_instance

instance : Steady standaloneSetting := by
  unfold standaloneSetting
  infer_instance

instance (encoding : Option String) (standalone : Bool) : Steady (closing encoding standalone) := by
  unfold closing
  infer_instance

instance (separated : Bool) (encoding : Option String) : Steady (pastEncoding separated encoding) := by
  unfold pastEncoding
  infer_instance

instance : Steady pastVersion := by
  unfold pastVersion
  infer_instance

instance : Steady scan := by
  rw [scan_eq]
  infer_instance

instance (label : String) : Lasting '>' (setting label) := by
  unfold setting
  infer_instance

instance : Lasting '>' encodingSetting := by
  unfold encodingSetting
  infer_instance

instance : Lasting '>' standaloneSetting := by
  unfold standaloneSetting
  infer_instance

instance (encoding : Option String) (standalone : Bool) : Closing '>' (closing encoding standalone) := by
  have ending : Closing '>' (exact "?>") := closing_exact (by decide)
  unfold closing
  infer_instance

instance (separated : Bool) (encoding : Option String) : Closing '>' (pastEncoding separated encoding) := by
  unfold pastEncoding
  infer_instance

instance : Closing '>' pastVersion := by
  unfold pastVersion
  infer_instance

instance : Closing '>' scan := by
  rw [scan_eq]
  infer_instance

section Keeping

variable {Note : Type} {note : Record → Note}

instance (label : String) : Keeps note (setting label) := by
  unfold setting
  infer_instance

instance : Keeps note encodingSetting := by
  unfold encodingSetting
  infer_instance

instance : Keeps note standaloneSetting := by
  unfold standaloneSetting
  infer_instance

instance (encoding : Option String) (standalone : Bool) : Keeps note (closing encoding standalone) := by
  unfold closing
  infer_instance

instance (separated : Bool) (encoding : Option String) : Keeps note (pastEncoding separated encoding) := by
  unfold pastEncoding
  infer_instance

instance : Keeps note pastVersion := by
  unfold pastVersion
  infer_instance

instance [Reader.Keeps note Reader.warn] : Keeps note scan := by
  rw [scan_eq]
  infer_instance

end Keeping

/-- A declaration is read in front of any text, without a fault and without a cost. -/
theorem scan_append {head : List Char} {declaration : Declaration} {noted : Record}
    (scanned : scan head {} = some ((declaration, []), noted)) (text : List Char) {record : Record}
    (spent : record.spent = 0) (faults : record.faults = 0) :
    ∃ later, scan (head ++ text) record = some ((declaration, text), later) ∧
      later.spent = 0 ∧ later.faults = 0 ∧ later.size = record.size := by
  have closing : Closing '>' scan := inferInstance
  have free : noted.spent = 0 := (inferInstance : Keeps Record.spent scan).kept scanned
  have faultless : noted.faults = 0 := (inferInstance : Keeps Record.faults scan).kept scanned
  obtain ⟨-, -, given⟩ := Steady.matching.along _ _ _ _ ((closing.lasts text).2 scanned)
  have alike : Record.Alike 0 0 {} record := ⟨spent, faults, .inl (Nat.zero_le _)⟩
  obtain ⟨later, scannedToo, alike⟩ := given 0 0 record (Nat.le_of_eq free) alike
  obtain ⟨-, size, -⟩ := Steady.matching.along _ _ _ _ scannedToo
  exact ⟨later, scannedToo, alike.spent.trans free, alike.faults.trans faultless, size⟩

/-- A declaration stands between its marks. -/
theorem exists_middle {head : List Char} {declaration : Declaration} {noted : Record}
    (scanned : scan head {} = some ((declaration, []), noted)) :
    ∃ middle, head = "<?xml".toList ++ (middle ++ "?>".toList) ∧ ∀ character ∈ middle, IsPlain character := by
  obtain ⟨middle, split, plain⟩ := takesTo_scan scanned
  exact ⟨middle, by rw [split, List.append_nil], plain⟩

end Declaration

/-! ## What follows a declaration -/

namespace Scan

theorem isSome_splitAt? (mark before front left : List Char) :
    (splitAt? mark before (front ++ (mark ++ left))).isSome = true := by
  induction front generalizing before with
  | nil =>
      have dropped : dropExact? mark (mark ++ left) = some left := dropExact?_eq_some_iff.2 rfl
      unfold splitAt?
      rw [List.nil_append]
      simp only [dropped, Option.isSome_some]
  | cons first front ih =>
      rw [List.cons_append, splitAt?]
      split
      · rfl
      · exact ih (first :: before)

end Scan

namespace Opening

variable {encodings : Encodings} {encoding : Encoding} {declaration : Declaration} {head middle : List Char}

/-- A declaration changes the encoding to the one that it names, for the bytes behind it. -/
theorem afterMark_of_scan {part bytes : List UInt8} {record later : Record}
    (scanned : Declaration.scan (head ++ (Decoder.take {} part).1) record =
      some ((declaration, (Decoder.take {} part).1), later))
    (named : declaration.encoding.elim (some .utf8) encodings.ofName? = some encoding)
    (behind : bytes.drop head.length = part) :
    afterMark encodings none bytes
        { decoder := (Decoder.take {} part).2, text := head ++ (Decoder.take {} part).1 } record =
      some (
        { declaration
          decoder := (Decoder.take { encoding } part).2
          text := (Decoder.take { encoding } part).1 }, later) := by
  have run : Declaration.scan.run (head ++ (Decoder.take {} part).1) record =
      some ((declaration, (Decoder.take {} part).1), later) := scanned
  rw [afterMark, if_pos (Declaration.begins_of_scan scanned), Reader.bind_run run]
  dsimp only
  cases name : declaration.encoding with
  | none =>
      rw [name, Option.elim_none, Option.some_inj] at named
      rw [← named]
      rfl
  | some name' =>
      rw [name, Option.elim_some] at named
      have found : (liftM (encodings.ofName? name') : Reader Encoding) later = some (encoding, later) := by
        rw [named]
        rfl
      have used : (head ++ (Decoder.take {} part).1).length - (Decoder.take {} part).1.length = head.length := by
        rw [List.length_append, Nat.add_sub_cancel]
      dsimp only
      rw [Reader.bind_run found, used, behind]
      rfl

/-- A document without a declaration is in UTF-8 if nothing tells another encoding. Of few bytes that can wait. -/
theorem read_of_undeclared {bytes : List UInt8} (unmarked : Encoding.ofMark? bytes = none)
    (undeclared : ¬Declaration.begins (Decoder.take {} bytes).1 = true) (final : Bool) (record : Record) :
    (final = false ∧ read encodings final bytes record = some (none, record)) ∨
      read encodings final bytes record =
        some (some { decoder := (Decoder.take {} bytes).2, text := (Decoder.take {} bytes).1 }, record) := by
  have opened : afterMark encodings none bytes
      { decoder := (Decoder.take {} bytes).2, text := (Decoder.take {} bytes).1 } record =
        some ({ decoder := (Decoder.take {} bytes).2, text := (Decoder.take {} bytes).1 }, record) := by
    rw [afterMark, if_neg undeclared]
    rfl
  unfold read
  rw [unmarked]
  dsimp only [Option.map_none, Option.getD_none, List.drop_zero]
  split
  · next few => exact .inl ⟨by simpa using (Bool.and_eq_true_iff.1 few).1, rfl⟩
  · split
    · next unread => exact .inl ⟨by simpa using (Bool.and_eq_true_iff.1 unread).1, rfl⟩
    · exact .inr (Reader.map_run opened some)

section Declared

variable (shape : head = "<?xml".toList ++ (middle ++ "?>".toList))
  (plain : ∀ character ∈ middle, IsPlain character)

include shape plain

theorem isPlain_of_mem_dropLast : ∀ character ∈ head.dropLast, IsPlain character := by
  have split : head.dropLast = "<?xml".toList ++ (middle ++ "?".toList) := by
    rw [shape, ← List.append_assoc, ← List.append_assoc]
    exact List.dropLast_append_of_ne_nil (by decide : "?>".toList ≠ [])
  rw [split, List.forall_mem_append, List.forall_mem_append]
  exact ⟨isPlain_of_all (by decide), plain, isPlain_of_all (by decide)⟩

theorem ascii_of_shape : ∀ character ∈ head, character.toNat < 0x80 := by
  rw [shape, List.forall_mem_append, List.forall_mem_append]
  have marks : ∀ {mark : List Char}, (mark.all fun character => decide (character.toNat < 0x80)) = true →
      ∀ character ∈ mark, character.toNat < 0x80 := fun all character member =>
    of_decide_eq_true (List.all_eq_true.1 all character member)
  exact ⟨marks (by decide), fun character member => (plain character member).1, marks (by decide)⟩

/-- What follows a declaration is read in the encoding that it names, which is UTF-8 if it names none. -/
theorem read_of_declaration (final : Bool) {part : List UInt8} {record later : Record}
    (scanned : Declaration.scan (head ++ (Decoder.take {} part).1) record =
      some ((declaration, (Decoder.take {} part).1), later))
    (named : declaration.encoding.elim (some .utf8) encodings.ofName? = some encoding) :
    read encodings final (head.flatMap String.utf8EncodeChar ++ part) record =
      some (some
        { declaration
          decoder := (Decoder.take { encoding } part).2
          text := (Decoder.take { encoding } part).1 }, later) := by
  have bytes := Text.flatMap_utf8EncodeChar_of_lt (ascii_of_shape shape plain)
  have arrived : Decoder.take {} (head.flatMap String.utf8EncodeChar ++ part) =
      (head ++ (Decoder.take {} part).1, (Decoder.take {} part).2) := by
    rw [Decoder.take_append, Decoder.take_flatMap_utf8EncodeChar]
  have behind : (head.flatMap String.utf8EncodeChar ++ part).drop head.length = part := by
    rw [bytes]
    exact List.drop_left' (List.length_map _)
  have opened := afterMark_of_scan scanned named behind
  have unmarked : Encoding.ofMark? (head.flatMap String.utf8EncodeChar ++ part) = none := by
    rw [bytes, shape]
    rfl
  have long : ¬(head.flatMap String.utf8EncodeChar ++ part).length < 4 := by
    rw [bytes, shape]
    simp
  have holds : holdsBytes 2 (Decoder.take {} part).2.held (head ++ (Decoder.take {} part).1) = true := by
    rw [shape]
    rfl
  have whole : isWithinInstruction (head ++ (Decoder.take {} part).1) = false := by
    have ended := Scan.isSome_splitAt? "?>".toList [] ("xml".toList ++ middle) (Decoder.take {} part).1
    have text : head ++ (Decoder.take {} part).1 =
        '<' :: '?' :: ("xml".toList ++ middle ++ ("?>".toList ++ (Decoder.take {} part).1)) := by
      rw [shape]
      simp
    rw [text, isWithinInstruction, ← Option.not_isSome, ended]
    rfl
  unfold read
  rw [unmarked]
  simp only [long, decide_false, Bool.and_false, Bool.false_eq_true, if_false, Option.map_none,
    Option.getD_none, List.drop_zero, arrived, holds, whole, Bool.not_true, Bool.or_false]
  exact Reader.map_run opened some

/-- A part of a declaration is a part of its text, and its end is not in it. -/
theorem exists_front_of_bytes {bytes rest : List UInt8} (more : rest ≠ [])
    (split : bytes ++ rest = head.flatMap String.utf8EncodeChar) :
    ∃ front, front <+: head ∧ bytes = front.flatMap String.utf8EncodeChar ∧ '>' ∉ front := by
  have ascii := ascii_of_shape shape plain
  rw [Text.flatMap_utf8EncodeChar_of_lt ascii] at split
  obtain ⟨front, back, cut, frontBytes, backBytes⟩ := List.map_eq_append_iff.1 split.symm
  have filled : back ≠ [] := by
    rintro rfl
    exact more backBytes.symm
  have asciiToo : ∀ character ∈ front, character.toNat < 0x80 := fun character member =>
    ascii character (cut ▸ List.mem_append_left _ member)
  refine ⟨front, ⟨back, cut.symm⟩, ?_, fun member => ?_⟩
  · rw [Text.flatMap_utf8EncodeChar_of_lt asciiToo, frontBytes]
  · refine (isPlain_of_mem_dropLast shape plain '>' ?_).2 rfl
    rw [cut, List.dropLast_append_of_ne_nil filled]
    exact List.mem_append_left _ member

/-- Nothing is read of a declaration before all of it has arrived. -/
theorem read_within_declaration {bytes rest : List UInt8} (more : rest ≠ [])
    (split : bytes ++ rest = head.flatMap String.utf8EncodeChar) (record : Record) :
    read encodings false bytes record = some (none, record) := by
  obtain ⟨front, begins, rfl, endless⟩ := exists_front_of_bytes shape plain more split
  by_cases short : (front.flatMap String.utf8EncodeChar).length < 4
  · rw [read, decide_eq_true short]
    rfl
  · have ascii : ∀ character ∈ front, character.toNat < 0x80 := fun character member =>
      ascii_of_shape shape plain character (begins.subset member)
    have marked : "<?xm".toList <+: head := ⟨'l' :: (middle ++ "?>".toList), by rw [shape]; rfl⟩
    have long : "<?xm".toList.length ≤ front.length := by
      rw [Text.flatMap_utf8EncodeChar_of_lt ascii, List.length_map] at short
      exact Nat.le_of_not_lt short
    obtain ⟨others, rfl⟩ := List.prefix_of_prefix_length_le marked begins long
    have within : isWithinInstruction ("<?xm".toList ++ others) = true := by
      change (Scan.splitAt? "?>".toList [] ("xm".toList ++ others)).isNone = true
      rw [Option.isNone_iff_eq_none]
      refine Option.eq_none_iff_forall_ne_some.2 fun found ended => endless ?_
      obtain ⟨before, -, same⟩ := Scan.eq_append_of_splitAt? ended
      have held : '>' ∈ "xm".toList ++ others := same ▸ List.mem_append_right before (List.mem_append_left _ (by decide))
      exact List.mem_append_right ['<', '?'] held
    have unmarked : Encoding.ofMark? (("<?xm".toList ++ others).flatMap String.utf8EncodeChar) = none := by
      rw [Text.flatMap_utf8EncodeChar_of_lt ascii]
      rfl
    unfold read
    rw [unmarked]
    simp only [short, decide_false, Bool.and_false, Bool.false_eq_true, if_false, Option.map_none,
      Option.getD_none, List.drop_zero, Decoder.take_flatMap_utf8EncodeChar, within, Bool.or_true, Bool.not_false,
      Bool.and_self, if_true]
    rfl

end Declared

end Opening

end WordStream.Markup

import Mathlib.Data.List.Infix
import WordStream.Markup.Stream
import WordStream.Proofs.Markup.Grammar

/-!
# The marks at the ends of parts

A part of a document is read once the mark is there that ends it. A part that can be read ends no later than with
the first such mark, so that the text that has arrived by then is enough for it.
-/

set_option autoImplicit false
set_option synthInstance.maxSize 1000

namespace WordStream.Markup

open Scan

/-! ## Marks -/

namespace Stream

theorem holds_iff {mark : List Char} (filled : mark ≠ []) (text : List Char) :
    holds mark text = true ↔ mark <:+: text := by
  induction text with
  | nil => simp [holds, filled]
  | cons first text ih => rw [holds, Bool.or_eq_true, ih, List.isPrefixOf_iff_prefix, List.infix_cons_iff]

theorem holdsMark_eq_false {front : Nat} {mark : String} (filled : mark.toList ≠ []) {text : List Char}
    (absent : ¬mark.toList <:+: text.drop front) : holdsMark front mark text = false := by
  rw [← Bool.not_eq_true, holdsMark, holds_iff filled]
  exact absent

theorem holdsMark_append {front : Nat} {mark : String} (filled : mark.toList ≠ []) {text : List Char}
    (held : holdsMark front mark text = true) (more : List Char) :
    holdsMark front mark (text ++ more) = true := by
  rw [holdsMark, holds_iff filled] at held ⊢
  exact held.trans ((List.prefix_append text more).drop front).isInfix

theorem holdsTagEnd_append {quote : Option Char} {text : List Char}
    (held : holdsTagEnd quote text = true) (more : List Char) :
    holdsTagEnd quote (text ++ more) = true := by
  fun_induction holdsTagEnd quote text with
  | case1 => cases held
  | case2 quote character rest ih =>
      rw [List.cons_append, holdsTagEnd]
      exact ih held
  | case3 => rfl
  | case4 character rest other ih =>
      rw [List.cons_append, holdsTagEnd, if_neg other]
      exact ih held

end Stream

namespace Scan

/-- A mark that begins with another character than a front has does not begin in the front. -/
theorem infix_of_append {first : Char} {mark front rest : List Char} (absent : first ∉ front)
    (held : first :: mark <:+: front ++ rest) : first :: mark <:+: rest := by
  induction front with
  | nil => exact held
  | cons character front ih =>
      rw [List.mem_cons, not_or] at absent
      rcases List.infix_cons_iff.1 held with begun | held
      · exact absurd (List.cons_prefix_cons.1 begun).1 absent.1
      · exact ih absent.2 held

theorem infix_dropLast {mark text : List Char} (held : mark <:+: text) : mark.dropLast <:+: text.dropLast := by
  obtain ⟨before, behind, rfl⟩ := held
  rcases List.eq_nil_or_concat behind with rfl | ⟨behind, last, rfl⟩
  · rcases List.eq_nil_or_concat mark with rfl | ⟨mark, last, rfl⟩
    · exact List.nil_infix
    · rw [List.append_nil, List.concat_eq_append, ← List.append_assoc, List.dropLast_concat,
        List.dropLast_concat]
      exact (List.suffix_append before mark).isInfix
  · rw [List.concat_eq_append, ← List.append_assoc, List.dropLast_concat]
    exact (List.dropLast_prefix mark).isInfix.trans (List.infix_append before mark behind)

/-- A text is split at the first place of a mark. -/
theorem not_infix_of_splitAt? {mark before text found left : List Char} (filled : mark ≠ [])
    (split : splitAt? mark before text = some (found, left)) :
    ∃ front, found = before.reverse ++ front ∧ text = front ++ (mark ++ left) ∧
      ¬mark <:+: front ++ mark.dropLast := by
  induction text generalizing before with
  | nil =>
      obtain ⟨front, -, same⟩ := eq_append_of_splitAt? split
      exact absurd (List.append_eq_nil_iff.1 (List.append_eq_nil_iff.1 same.symm).2).1 filled
  | cons first text ih =>
      cases dropped : dropExact? mark (first :: text) with
      | some rest =>
          rw [splitAt?_of_some dropped] at split
          cases split
          refine ⟨[], (List.append_nil _).symm, (dropExact?_eq_some_iff.1 dropped :), fun held => ?_⟩
          have length := held.length_le
          rw [List.nil_append, List.length_dropLast] at length
          have some := List.length_pos_iff.2 filled
          omega
      | none =>
          rw [splitAt?_cons_of_none dropped] at split
          obtain ⟨front, rfl, rfl, absent⟩ := ih split
          refine ⟨first :: front, by simp, rfl, fun held => ?_⟩
          rcases List.infix_cons_iff.1 held with begun | held
          · have longer : first :: (front ++ mark.dropLast) <+: first :: (front ++ (mark ++ left)) := by
              rw [List.prefix_cons_inj, List.prefix_append_right_inj]
              exact (List.dropLast_prefix mark).trans (List.prefix_append mark left)
            obtain ⟨rest, same⟩ := begun.trans longer
            rw [dropExact?_eq_some_iff.2 same.symm] at dropped
            cases dropped
          · exact absent held

theorem eq_append_of_takeWhile {accept : Char → Bool} {text front left : List Char} {record later : Record}
    (taken : takeWhile accept text record = some ((front, left), later)) :
    text = front ++ left ∧ ∀ character ∈ front, accept character = true := by
  rw [takeWhile_run] at taken
  cases taken
  exact ⟨List.takeWhile_append_dropWhile.symm, fun character member =>
    List.all_eq_true.1 List.all_takeWhile _ member⟩

theorem eq_append_of_name {text left : List Char} {record later : Record} {value : String}
    (taken : name text record = some ((value, left), later)) :
    ∃ front, text = front ++ left ∧ ∀ character ∈ front, isNamePart character = true := by
  obtain ⟨front, _, _, taken, rest⟩ := bind_eq_some_iff.1 taken
  obtain ⟨_, _, _, passed, given⟩ := bind_eq_some_iff.1 rest
  obtain rfl := Idle.left_eq passed
  cases given
  exact ⟨front, eq_append_of_takeWhile taken⟩

theorem eq_append_of_someSpaceTaken {text left : List Char} {record later : Record} {value : Bool}
    (taken : someSpaceTaken text record = some ((value, left), later)) :
    ∃ front, text = front ++ left ∧ ∀ character ∈ front, isSpace character = true := by
  obtain ⟨front, _, _, taken, given⟩ := bind_eq_some_iff.1 taken
  cases given
  exact ⟨front, eq_append_of_takeWhile taken⟩

theorem eq_append_of_space {text left : List Char} {record later : Record} {value : Unit}
    (taken : space text record = some ((value, left), later)) :
    ∃ front, text = front ++ left ∧ ∀ character ∈ front, isSpace character = true := by
  have passed : (someSpaceTaken >>= fun _ => pure ()) text record = some ((value, left), later) := taken
  obtain ⟨_, _, _, passed, given⟩ := bind_eq_some_iff.1 passed
  cases given
  exact eq_append_of_someSpaceTaken passed

theorem not_infix_of_upTo {mark : String} (filled : mark.toList ≠ []) {text found left : List Char}
    {record later : Record} (taken : upTo mark text record = some ((found, left), later)) :
    text = found ++ (mark.toList ++ left) ∧ ¬mark.toList <:+: found ++ mark.toList.dropLast := by
  rw [upTo_run] at taken
  obtain ⟨⟨_, _⟩, split, same⟩ := Option.map_eq_some_iff.1 taken
  cases same
  obtain ⟨front, same, split, absent⟩ := not_infix_of_splitAt? filled split
  rw [List.reverse_nil, List.nil_append] at same
  subst same
  exact ⟨split, absent⟩

/-! ## What is taken before a mark -/

section Reaching

variable {α : Type} {scan : Scan α} {ready : List Char → Bool}

/-- Whether a scan takes something, and what it takes before the last character does not seem to be complete. -/
def Reaches (ready : List Char → Bool) (scan : Scan α) : Prop :=
  ∀ text record value left later, scan text record = some ((value, left), later) →
    ∃ front last, text = front ++ last :: left ∧ ready front = false

/-- What seems to be complete is enough for a scan. -/
theorem Reaches.within (reaches : scan.Reaches ready)
    (grows : ∀ text more, ready text = true → ready (text ++ more) = true)
    {text more left : List Char} {record later : Record} {value : α} (come : ready text = true)
    (taken : scan (text ++ more) record = some ((value, left), later)) :
    ∃ rest, left = rest ++ more := by
  obtain ⟨front, last, split, unready⟩ := reaches _ _ _ _ _ taken
  rcases List.append_eq_append_iff.1 split with ⟨rest, rfl, -⟩ | ⟨rest, whole, same⟩
  · rw [grows text rest come] at unready
    cases unready
  · cases rest with
    | nil =>
        rw [List.append_nil] at whole
        rw [← whole, come] at unready
        cases unready
    | cons first rest =>
        rw [List.cons_append, List.cons.injEq] at same
        exact ⟨rest, same.2⟩

end Reaching

/-! ## Tags -/

section Tags

variable {α β : Type}

/-- Whether what a scan takes neither ends a tag nor leaves a quote open. -/
class Quiet (scan : Scan α) : Prop where
  quiet : ∀ {text record value left later}, scan text record = some ((value, left), later) →
    ∃ front, text = front ++ left ∧
      ∀ rest, Stream.holdsTagEnd none (front ++ rest) = Stream.holdsTagEnd none rest

theorem quiet_of_left_eq {scan : Scan α}
    (same : ∀ {text record value left later}, scan text record = some ((value, left), later) →
      left = text) : Quiet scan where
  quiet taken := ⟨[], (same taken).symm, fun _ => rfl⟩

instance {scan : Scan α} [Idle scan] : Quiet scan :=
  quiet_of_left_eq Idle.left_eq

instance {first : Scan α} {next : α → Scan β} [one : Quiet first]
    [other : ∀ value, Quiet (next value)] : Quiet (first >>= next) where
  quiet taken := by
    obtain ⟨value, left, later, takenFirst, takenNext⟩ := bind_eq_some_iff.1 taken
    obtain ⟨front, rfl, quiet⟩ := one.quiet takenFirst
    obtain ⟨back, rfl, quietNext⟩ := (other value).quiet takenNext
    exact ⟨front ++ back, (List.append_assoc ..).symm, fun rest => by
      rw [List.append_assoc, quiet, quietNext]⟩

instance {condition : Prop} [Decidable condition] {first second : Scan α} [Quiet first]
    [Quiet second] : Quiet (if condition then first else second) := by
  split <;> infer_instance

instance {scan : Scan α} [Quiet scan] : Quiet (discard scan) :=
  inferInstanceAs (Quiet (scan >>= fun _ => pure ()))

theorem Quiet.after {first : Scan α} [Quiet first] {next : α → Scan β}
    (nextQuiet : ∀ value, Quiet (next value)) : Quiet (first >>= next) :=
  inferInstance

instance (mark : String) : Quiet (at? mark) :=
  quiet_of_left_eq fun taken => by cases taken; rfl

/-- Whether a character may stand in a tag without ending it or opening a quote. -/
def isQuiet (character : Char) : Bool :=
  character != '>' && character != '"' && character != '\''

theorem holdsTagEnd_of_isQuiet {front : List Char} (quiet : ∀ character ∈ front, isQuiet character = true)
    (rest : List Char) :
    Stream.holdsTagEnd none (front ++ rest) = Stream.holdsTagEnd none rest := by
  induction front with
  | nil => rfl
  | cons character front ih =>
      rw [List.forall_mem_cons] at quiet
      have plain := quiet.1
      simp only [isQuiet, Bool.and_eq_true, bne_iff_ne] at plain
      rw [List.cons_append, Stream.holdsTagEnd, if_neg plain.1.1, if_neg (by simp [plain.1.2, plain.2])]
      exact ih quiet.2

theorem quiet_exact {mark : String} (plain : mark.toList.all isQuiet = true) :
    Quiet (exact mark) where
  quiet taken := ⟨mark.toList, exact_eq_some taken, holdsTagEnd_of_isQuiet (List.all_eq_true.1 plain)⟩

instance : Quiet (exact "=") := quiet_exact (by decide)

instance : Quiet (exact "\r") := quiet_exact (by decide)

theorem quiet_takeWhile {accept : Char → Bool} (plain : ∀ character, accept character = true →
    isQuiet character = true) : Quiet (takeWhile accept) where
  quiet {text _ _ _ _} taken := by
    rw [takeWhile_run] at taken
    cases taken
    exact ⟨text.takeWhile accept, List.takeWhile_append_dropWhile.symm, holdsTagEnd_of_isQuiet
      fun character member => plain character (List.all_eq_true.1 List.all_takeWhile _ member)⟩

theorem isQuiet_of_isSpace {character : Char} (space : isSpace character = true) :
    isQuiet character = true := by
  simp only [isSpace, Bool.or_eq_true, decide_eq_true_iff] at space
  rcases space with ((rfl | rfl) | rfl) | rfl <;> decide

theorem isQuiet_of_isNamePart {character : Char} (part : isNamePart character = true) :
    isQuiet character = true := by
  rw [isQuiet, Bool.and_eq_true, Bool.and_eq_true, bne_iff_ne, bne_iff_ne, bne_iff_ne]
  refine ⟨⟨?_, ?_⟩, ?_⟩ <;>
  · rintro rfl
    revert part
    decide

instance : Quiet (taken "/") where
  quiet {text record value left later} given := by
    rw [taken_run] at given
    split at given
    · next dropped =>
        cases given
        exact ⟨['/'], dropExact?_eq_some_iff.1 dropped, holdsTagEnd_of_isQuiet (List.all_eq_true.1 (by decide))⟩
    · cases given
      exact ⟨[], rfl, fun _ => rfl⟩

instance : Quiet (takeWhile isSpace) := quiet_takeWhile fun _ => isQuiet_of_isSpace

instance : Quiet (takeWhile isNamePart) := quiet_takeWhile fun _ => isQuiet_of_isNamePart

instance : Quiet someSpaceTaken :=
  inferInstanceAs (Quiet (takeWhile isSpace >>= fun blanks => pure !blanks.isEmpty))

instance : Quiet space := inferInstanceAs (Quiet (discard someSpaceTaken))

theorem holdsTagEnd_quoted {quote : Char} (isQuote : quote = '"' ∨ quote = '\'') {front : List Char}
    (within : quote ∉ front) (rest : List Char) :
    Stream.holdsTagEnd none (quote :: (front ++ quote :: rest)) = Stream.holdsTagEnd none rest := by
  have closed : Stream.holdsTagEnd (some quote) (front ++ quote :: rest) = Stream.holdsTagEnd none rest := by
    induction front with
    | nil => rw [List.nil_append, Stream.holdsTagEnd, if_pos rfl]
    | cons character front ih =>
        rw [List.mem_cons, not_or] at within
        rw [List.cons_append, Stream.holdsTagEnd, if_neg (Ne.symm within.1)]
        exact ih within.2
  rcases isQuote with rfl | rfl
  · rw [Stream.holdsTagEnd, if_neg (by decide), if_pos (by decide), closed]
  · rw [Stream.holdsTagEnd, if_neg (by decide), if_pos (by decide), closed]

/-- A text in quotes is passed over as a whole. -/
theorem quiet_of_upTo {quote : Char} {mark : String} (single : mark.toList = [quote])
    (isQuote : quote = '"' ∨ quote = '\'') {text left value : List Char} {record later : Record}
    (taken : upTo mark text record = some ((value, left), later)) :
    ∃ front, quote :: text = front ++ left ∧
      ∀ rest, Stream.holdsTagEnd none (front ++ rest) = Stream.holdsTagEnd none rest := by
  obtain ⟨rfl, first⟩ := not_infix_of_upTo (by rw [single]; nofun) taken
  rw [single, List.dropLast_singleton, List.append_nil] at first
  have within : quote ∉ value := by
    intro member
    obtain ⟨before, behind, rfl⟩ := List.append_of_mem member
    exact first ⟨before, behind, by simp⟩
  refine ⟨quote :: (value ++ [quote]), by rw [single]; simp, fun rest => ?_⟩
  rw [List.cons_append, List.append_assoc]
  exact holdsTagEnd_quoted isQuote within rest

instance : Quiet quoted where
  quiet {text record value left later} taken := by
    obtain ⟨double, rest, _, opened, taken⟩ := bind_eq_some_iff.1 taken
    rw [taken_run] at opened
    split at opened
    · next dropped =>
        cases opened
        rw [dropExact?_eq_some_iff.1 dropped]
        exact quiet_of_upTo rfl (.inl rfl) taken
    · cases opened
      obtain ⟨_, rest, _, opened, taken⟩ := bind_eq_some_iff.1 taken
      rw [exact_eq_some opened]
      exact quiet_of_upTo rfl (.inr rfl) taken

instance {State : Type} {step : State → Scan (Option State)} [∀ state, Quiet (step state)]
    (characters : List Char) (state : State) : Quiet (rounds step characters state) := by
  induction characters generalizing state with
  | nil =>
      refine Quiet.after fun told => ?_
      cases told with
      | none => exact inferInstanceAs (Quiet (pure state))
      | some later => exact inferInstanceAs (Quiet failure)
  | cons character characters ih =>
      refine Quiet.after fun told => ?_
      cases told with
      | none => exact inferInstanceAs (Quiet (pure state))
      | some later => exact ih later

instance {State : Type} {step : State → Scan (Option State)} [∀ state, Quiet (step state)]
    (state : State) : Quiet (repeating step state) where
  quiet {text _ _ _ _} taken := (inferInstance : Quiet (rounds step text state)).quiet taken

/-- Whether a scan takes what does not end a tag, and then the end of it. -/
def EndsTag (scan : Scan α) : Prop :=
  ∀ text record value left later, scan text record = some ((value, left), later) →
    ∃ front, text = front ++ '>' :: left ∧
      ∀ rest, Stream.holdsTagEnd none (front ++ rest) = Stream.holdsTagEnd none rest

theorem endsTag_exact : EndsTag (exact ">") :=
  fun _ _ _ _ _ taken => ⟨[], exact_eq_some taken, fun _ => rfl⟩

theorem EndsTag.after {first : Scan α} [one : Quiet first] {next : α → Scan β}
    (nextEnds : ∀ value, EndsTag (next value)) : EndsTag (first >>= next) := by
  intro text record value left later taken
  obtain ⟨middle, rest, between, takenFirst, takenNext⟩ := bind_eq_some_iff.1 taken
  obtain ⟨front, rfl, quiet⟩ := one.quiet takenFirst
  obtain ⟨back, rfl, quietNext⟩ := nextEnds middle _ _ _ _ _ takenNext
  exact ⟨front ++ back, (List.append_assoc ..).symm, fun rest => by rw [List.append_assoc, quiet, quietNext]⟩

theorem EndsTag.before {first : Scan α} (firstEnds : EndsTag first) {next : α → Scan β}
    (nextIdles : ∀ value, Idle (next value)) : EndsTag (first >>= next) := by
  intro text record value left later taken
  obtain ⟨middle, rest, between, takenFirst, takenNext⟩ := bind_eq_some_iff.1 taken
  obtain ⟨front, same, quiet⟩ := firstEnds _ _ _ _ _ takenFirst
  exact ⟨front, Idle.left_eq takenNext ▸ same, quiet⟩

end Tags

end Scan

instance : Quiet qualifiedName := by
  unfold qualifiedName
  refine Quiet.after fun characters => ?_
  cases QualifiedName.split? characters with
  | some name => exact inferInstanceAs (Quiet (pure name))
  | none => infer_instance

namespace StartTag

instance (declarations : Declarations) (depth : Nat) (element : QualifiedName)
    (done : List Attribute × Scope) : Quiet (nextAttribute declarations depth element done) := by
  rw [nextAttribute_eq]
  refine .after fun _ => .after fun _ => .after fun _ => ?_
  have quiet : Quiet (separatedAttribute declarations depth element done) := by
    unfold separatedAttribute
    refine .after fun name => .after fun _ => .after fun _ => .after fun _ => .after fun _ =>
      .after fun _ => ?_
    dsimp only
    cases name.declared? with
    | some qualifier => infer_instance
    | none => infer_instance
  infer_instance

theorem endsTag_scan (declarations : Declarations) (depth : Nat) : EndsTag (scan declarations depth) :=
  .after fun _ => .after fun _ => .after fun _ => .before endsTag_exact fun _ => inferInstance

end StartTag

/-! ## Parts -/

theorem reaches_comment :
    (exact "<!--" >>= fun _ => comment).Reaches (Stream.holdsMark 4 "-->") := by
  intro text record value left later taken
  obtain ⟨_, rest, _, opened, taken⟩ := bind_eq_some_iff.1 taken
  obtain ⟨body, between, _, front, taken⟩ := bind_eq_some_iff.1 taken
  obtain ⟨_, _, _, closed, taken⟩ := bind_eq_some_iff.1 taken
  obtain rfl := Idle.left_eq taken
  obtain ⟨rfl, first⟩ := not_infix_of_upTo (by decide) front
  refine ⟨"<!--".toList ++ (body ++ "--".toList), '>', ?_, ?_⟩
  · rw [exact_eq_some opened, exact_eq_some closed]
    simp
  · refine Stream.holdsMark_eq_false (by decide) fun held => first ?_
    have shorter : "--".toList <:+: (body ++ "--".toList).dropLast := infix_dropLast held
    rw [List.dropLast_append_of_ne_nil (by decide)] at shorter
    exact shorter

theorem reaches_instruction :
    (exact "<?" >>= fun _ => instruction).Reaches (Stream.holdsMark 2 "?>") := by
  have plain : ∀ {accept : Char → Bool} {front : List Char}, accept '?' = false →
      (∀ character ∈ front, accept character = true) → '?' ∉ front := fun refused accepted member => by
    rw [accepted _ member] at refused
    cases refused
  intro text record value left later taken
  obtain ⟨_, _, _, opened, behindMark⟩ := bind_eq_some_iff.1 taken
  rw [exact_eq_some opened]
  obtain ⟨_, rest, _, named, behindName⟩ := bind_eq_some_iff.1 behindMark
  obtain ⟨name, rfl, accepted⟩ := eq_append_of_name named
  have noMark := plain (by decide) accepted
  obtain ⟨_, _, _, checked, behindCheck⟩ := bind_eq_some_iff.1 behindName
  obtain rfl := Idle.left_eq checked
  obtain ⟨ended, between, _, tested, behindTest⟩ := bind_eq_some_iff.1 behindCheck
  rw [taken_run] at tested
  split at tested
  · next dropped =>
      cases tested
      cases behindTest
      rw [dropExact?_eq_some_iff.1 dropped]
      refine ⟨"<?".toList ++ (name ++ ['?']), '>', by simp, ?_⟩
      refine Stream.holdsMark_eq_false (by decide) fun held => ?_
      have length := (infix_of_append noMark held).length_le
      revert length
      decide
  · cases tested
    obtain ⟨_, _, _, spaced, behindSpace⟩ := bind_eq_some_iff.1 behindTest
    obtain ⟨separated, rest, _, spaced, passed⟩ := bind_eq_some_iff.1 spaced
    obtain rfl := Idle.left_eq passed
    obtain ⟨blanks, rfl, blank⟩ := eq_append_of_someSpaceTaken spaced
    obtain ⟨body, _, _, front, checked⟩ := bind_eq_some_iff.1 behindSpace
    obtain rfl := Idle.left_eq checked
    obtain ⟨rfl, first⟩ := not_infix_of_upTo (by decide) front
    refine ⟨"<?".toList ++ (name ++ (blanks ++ (body ++ ['?']))), '>', by simp, ?_⟩
    refine Stream.holdsMark_eq_false (by decide) fun held => first ?_
    exact infix_of_append (plain (by decide) blank) (infix_of_append noMark held)

namespace Content

variable (setting : Setting) (progress : Progress)

theorem reaches_startTag :
    (exact "<" >>= fun _ => startTag setting progress).Reaches fun text =>
      Stream.holdsTagEnd none (text.drop 1) := by
  have ends : EndsTag (startTag setting progress) :=
    .after fun _ => .before (StartTag.endsTag_scan _ _) fun written => inferInstance
  intro text record value left later taken
  obtain ⟨_, rest, _, opened, taken⟩ := bind_eq_some_iff.1 taken
  obtain ⟨front, rfl, quiet⟩ := ends _ _ _ _ _ taken
  refine ⟨'<' :: front, '>', exact_eq_some opened, ?_⟩
  have none := quiet []
  rw [List.append_nil] at none
  exact none

theorem reaches_literalSection :
    (exact "<![CDATA[" >>= fun _ => literalSection progress).Reaches (Stream.holdsMark 9 "]]>") := by
  intro text record value left later taken
  obtain ⟨_, rest, _, opened, taken⟩ := bind_eq_some_iff.1 taken
  obtain ⟨body, _, _, front, taken⟩ := bind_eq_some_iff.1 taken
  obtain rfl := Idle.left_eq taken
  obtain ⟨rfl, first⟩ := not_infix_of_upTo (by decide) front
  refine ⟨"<![CDATA[".toList ++ (body ++ "]]".toList), '>', ?_, ?_⟩
  · rw [exact_eq_some opened]
    simp
  · exact Stream.holdsMark_eq_false (by decide) fun held => first held

theorem reaches_endTag {element : Element} (named : '>' ∉ element.name.written.toList)
    (outer : List Element) :
    (exact "</" >>= fun _ => endTag element outer progress).Reaches (Stream.holdsMark 1 ">") := by
  intro text record value left later taken
  obtain ⟨_, _, _, opened, behindMark⟩ := bind_eq_some_iff.1 taken
  obtain ⟨_, _, _, written, behindName⟩ := bind_eq_some_iff.1 behindMark
  obtain ⟨_, _, _, spaced, behindSpace⟩ := bind_eq_some_iff.1 behindName
  obtain ⟨blanks, rfl, blank⟩ := eq_append_of_space spaced
  obtain ⟨_, _, _, closed, given⟩ := bind_eq_some_iff.1 behindSpace
  obtain rfl := Idle.left_eq given
  refine ⟨"</".toList ++ (element.name.written.toList ++ blanks), '>', ?_, ?_⟩
  · rw [exact_eq_some opened, exact_eq_some written, exact_eq_some closed]
    simp
  · refine Stream.holdsMark_eq_false (by decide) fun held => ?_
    have member : '>' ∈ '/' :: (element.name.written.toList ++ blanks) :=
      held.subset (List.mem_singleton.2 rfl)
    simp only [List.mem_cons, List.mem_append] at member
    rcases member with slash | inName | inBlanks
    · revert slash
      decide
    · exact named inName
    · exact absurd (blank _ inBlanks) (by decide)

theorem reaches_reference (expansion : Expansion) :
    (exact "&" >>= fun _ => reference expansion setting progress).Reaches (Stream.holdsMark 1 ";") := by
  intro text record value left later taken
  obtain ⟨_, rest, _, opened, taken⟩ := bind_eq_some_iff.1 taken
  obtain ⟨onward, idles, same⟩ := exists_reference_eq expansion setting progress
  rw [same] at taken
  obtain ⟨body, between, _, front, taken⟩ := bind_eq_some_iff.1 taken
  obtain rfl := Idle.left_eq taken
  obtain ⟨rfl, first⟩ := not_infix_of_upTo (by decide) front
  refine ⟨'&' :: body, ';', ?_, ?_⟩
  · rw [exact_eq_some opened]
    simp
  · refine Stream.holdsMark_eq_false (by decide) fun held => first ?_
    exact (List.append_nil body).symm ▸ held

end Content

end WordStream.Markup

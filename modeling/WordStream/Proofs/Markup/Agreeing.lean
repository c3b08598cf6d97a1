import Mathlib.Data.List.DropRight
import WordStream.Proofs.Markup.Retold
import WordStream.Proofs.Markup.Stretches

/-!
# Streams that come to one end

Some of what is read hangs on how much has arrived: separating characters are passed over as far as they are there,
a stretch of text is told as far as it has come, and what stands behind the root element of a document with faults is
dropped. Either way the stream comes to the same end, and the texts are the same once they are gathered.
-/

set_option autoImplicit false

namespace WordStream.Markup

namespace Stream

variable {stream other another last : Stream}

/-- Whether a stream that comes to an end is followed there by another one, which tells the same. -/
def Finds (stream other : Stream) : Prop :=
  ∀ last, stream.Ends last →
    ∃ finish, other.Ends finish ∧ finish.record = last.record ∧ gather finish.told = gather last.told

/-- Whether two streams come to an end together and tell the same. -/
structure Agrees (stream other : Stream) : Prop where
  finds : stream.Finds other
  found : other.Finds stream

theorem finds_of_ends (ends : ∀ {last}, stream.Ends last → other.Ends last) : stream.Finds other :=
  fun last reached => ⟨last, ends reached, rfl, rfl⟩

theorem agrees_of_ends_iff (ends : ∀ {last}, stream.Ends last ↔ other.Ends last) : stream.Agrees other :=
  ⟨finds_of_ends ends.1, finds_of_ends ends.2⟩

/-- A step does not change how a document ends. -/
theorem agrees_of_step (read : stream.step true = some (some other)) : stream.Agrees other :=
  agrees_of_ends_iff ⟨fun ends => ends.of_step read, .onward read⟩

/-! ## Separating characters -/

theorem outside_of_space (final : Bool) (space : stream.text.head?.any isSpace = true) :
    stream.outside final = some (some { stream with text := stream.text.dropWhile isSpace }) :=
  if_pos space

/-- Separating characters outside of the root element are passed over. -/
theorem ends_dropWhile_iff (stage : stream.stage = .prolog ∨ stream.stage = .beforeRoot ∨ stream.stage = .epilog) :
    stream.Ends last ↔ Ends { stream with text := stream.text.dropWhile isSpace } last := by
  by_cases space : stream.text.head?.any isSpace = true
  · have read : stream.step true = some (some { stream with text := stream.text.dropWhile isSpace }) := by
      rw [← outside_of_space true space]
      unfold Stream.step
      rcases stage with stage | stage | stage <;> rw [stage]
    exact ⟨fun ends => ends.of_step read, .onward read⟩
  · have same : stream.text.dropWhile isSpace = stream.text := by
      cases text : stream.text with
      | nil => rfl
      | cons first rest =>
          rw [text] at space
          exact List.dropWhile_cons_of_neg space
    rw [same]

/-- It makes no difference where separating characters are cut. -/
theorem agrees_dropWhile (stage : stream.stage = .prolog ∨ stream.stage = .beforeRoot ∨ stream.stage = .epilog)
    (front more : List Char) :
    Agrees { stream with text := front ++ more }
      { stream with text := front.dropWhile isSpace ++ more } := by
  have same : (front.dropWhile isSpace ++ more).dropWhile isSpace = (front ++ more).dropWhile isSpace := by
    rw [List.dropWhile_append, List.dropWhile_append, List.dropWhile_idempotent]
  have passed : ∀ (text : List Char) {last : Stream}, Ends { stream with text } last ↔
      Ends { stream with text := text.dropWhile isSpace } last := fun _ _ => ends_dropWhile_iff stage
  exact agrees_of_ends_iff fun {last} => by rw [passed (front ++ more), passed (_ ++ more), same]

/-! ## Stretches of text -/

/-- The stream that has read a stretch up to what is left, and has told it in pieces. -/
def tellStretch (stream : Stream) (pieces : List String) (left : List Char) : Stream :=
  { stream with
    text := left
    progress := { stream.progress with calls := pieces.map .data ++ stream.progress.calls } }

theorem stretch_run (rooted : stream.progress.elements ≠ []) (within : stream.stage = .content)
    (final : Bool) :
    some <$> stream.advance (Content.stretch final) =
      (Stretch.split? final true {} stream.text).map fun parts =>
        some (stream.tellStretch parts.1.pieces parts.2) := by
  have stage : ∀ progress : Progress, progress.elements = stream.progress.elements →
      (if progress.elements.isEmpty = true then Stage.epilog else .content) = stream.stage := by
    intro progress same
    rw [same, if_neg fun none => rooted (List.isEmpty_iff.1 none), within]
  have told : stream.run (Content.stretch final stream.progress) =
      (Stretch.split? final true {} stream.text).map fun parts =>
        ({ stream.progress with calls := parts.1.pieces.map .data ++ stream.progress.calls },
          { stream with text := parts.2 }) := by
    change (Content.stretch final stream.progress stream.text stream.record).bind _ = _
    rw [Content.stretch_run]
    cases Stretch.split? final true {} stream.text <;> rfl
  rw [some_advance, told, Option.map_map]
  refine congrArg (Option.map · _) (funext fun parts => ?_)
  simp only [Function.comp_apply, reach, tellStretch, stage]

theorem content_of_stretch {first : Char} {rest : List Char} (text : stream.text = first :: rest)
    (unmarked : ¬(first = '<' ∨ first = '&')) : stream.content true = stream.stretch true := by
  have other : ∀ mark : String, (mark.toList.head?.any fun start => start = '<' || start = '&') = true →
      mark.toList.isPrefixOf stream.text = false := by
    intro mark starts
    cases marked : mark.toList with
    | nil =>
        rw [marked] at starts
        cases starts
    | cons start marks =>
        rw [marked] at starts
        have differs : start ≠ first := by
          rintro rfl
          exact unmarked (by simpa using starts)
        rw [text, List.isPrefixOf, beq_eq_false_iff_ne.2 differs, Bool.false_and]
  have filled : stream.text.isEmpty = false := by rw [text]; rfl
  simp only [Stream.content, filled, other "<?" (by decide), other "<!--" (by decide),
    other "<![CDATA[" (by decide), other "</" (by decide), other "<" (by decide), other "&" (by decide),
    Bool.false_or, Bool.not_true, Bool.false_and, Bool.false_eq_true, if_false]

/-- However much of a text in an element is a stretch, it is told as it stands. -/
theorem ends_tellStretch_iff (rooted : stream.progress.elements ≠ []) (within : stream.stage = .content) :
    stream.Ends last ↔ ∃ done left, Stretch.split? true true {} stream.text = some (done, left) ∧
      (stream.tellStretch done.pieces left).Ends last := by
  by_cases marked : ∀ character ∈ stream.text.head?, character = '<' ∨ character = '&'
  · have same : stream.tellStretch [] stream.text = stream := rfl
    rw [Stretch.split?_of_mark true marked]
    constructor
    · exact fun ends => ⟨{}, stream.text, rfl, ends⟩
    · rintro ⟨_, _, split, ends⟩
      cases split
      exact ends
  · push Not at marked
    obtain ⟨first, starts, unmarked⟩ := marked
    obtain ⟨rest, text⟩ := List.head?_eq_some_iff.1 starts
    have read : stream.step true = (Stretch.split? true true {} stream.text).map fun parts =>
        some (stream.tellStretch parts.1.pieces parts.2) := by
      rw [← stretch_run rooted within]
      unfold Stream.step
      rw [within]
      dsimp only
      rw [content_of_stretch text (by tauto)]
      rfl
    constructor
    · intro ends
      cases split : Stretch.split? true true {} stream.text with
      | none =>
          rw [split] at read
          cases ends with
          | finished waits => cases waits.symm.trans read
          | onward readToo => cases readToo.symm.trans read
      | some parts =>
          rw [split] at read
          exact ⟨parts.1, parts.2, rfl, ends.of_step read⟩
    · rintro ⟨done, left, split, ends⟩
      exact .onward (by rw [read, split]; rfl) ends

/-- It makes no difference into which pieces a stretch is cut. -/
theorem agrees_of_join_eq {pieces others : List String}
    (same : String.join pieces.reverse = String.join others.reverse) (left : List Char) :
    (stream.tellStretch pieces left).Agrees (stream.tellStretch others left) := by
  let bare : Stream := { stream with text := left, progress := { stream.progress with calls := [] } }
  have gathered : ∀ (pieces : List String) (rest : List Call),
      gather ((pieces.map Call.data ++ stream.progress.calls).reverse ++ rest) =
        gather (stream.progress.calls.reverse ++ (pieces.reverse.map Call.data ++ rest)) := by
    intro pieces rest
    rw [List.reverse_append, List.append_assoc, List.map_reverse]
  have retold : (stream.tellStretch pieces left).Retold (stream.tellStretch others left) := by
    refine ⟨bare, pieces.map .data ++ stream.progress.calls, others.map .data ++ stream.progress.calls,
      rfl, rfl, fun rest => ?_⟩
    rw [gathered, gathered]
    refine gather_append ?_ _
    rw [gather_pieces, gather_pieces, same]
  have finds : ∀ {former latter : Stream}, former.Retold latter → former.Finds latter := by
    intro former latter retold last ends
    obtain ⟨finish, ends, retold⟩ := retold.ends ends
    exact ⟨finish, ends, retold.record_eq.symm, retold.gather_told.symm⟩
  exact ⟨finds retold, finds retold.symm⟩

theorem tellStretch_tellStretch (pieces others : List String) (between left : List Char) :
    (stream.tellStretch pieces between).tellStretch others left =
      stream.tellStretch (others ++ pieces) left := by
  simp only [tellStretch, List.map_append, List.append_assoc]

/-- A stretch may be told as far as it has come, where no line end of two characters is cut. -/
theorem agrees_tellStretch (rooted : stream.progress.elements ≠ []) (within : stream.stage = .content)
    {front more left : List Char} {done : Stretch}
    (split : Stretch.split? false true {} front = some (done, left))
    (unbroken : front.getLast? = some '\r' → more.head? ≠ some '\n') :
    Agrees { stream with text := front ++ more } (stream.tellStretch done.pieces (left ++ more)) := by
  obtain ⟨read, found, told⟩ := Stretch.join_pieces split
  have whole := Stretch.read?_append found unbroken
  have onward : ∀ {last}, Ends { stream with text := front ++ more } last ↔ _ :=
    ends_tellStretch_iff rooted within
  have onwardToo : ∀ {last}, (stream.tellStretch done.pieces (left ++ more)).Ends last ↔ _ :=
    ends_tellStretch_iff rooted within
  have joined : ∀ {all rest : Stretch} {former latter : List Char},
      String.join all.pieces.reverse = String.ofList former →
      String.join rest.pieces.reverse = String.ofList latter → former = read ++ latter →
      String.join all.pieces.reverse = String.join (rest.pieces ++ done.pieces).reverse := by
    rintro all rest _ latter former same rfl
    rw [former, List.reverse_append, String.join_append, told, same, String.ofList_append]
  constructor
  · intro last ends
    obtain ⟨all, _, split, ends⟩ := onward.1 ends
    obtain ⟨former, foundAll, told⟩ := Stretch.join_pieces split
    obtain ⟨⟨latter, behind⟩, foundRest, same⟩ := Option.map_eq_some_iff.1 (whole.symm.trans foundAll)
    cases same
    obtain ⟨rest, splitRest⟩ := Stretch.exists_split? foundRest
    obtain ⟨_, foundToo, toldRest⟩ := Stretch.join_pieces splitRest
    cases foundRest.symm.trans foundToo
    obtain ⟨finish, ends, same⟩ := (agrees_of_join_eq (joined told toldRest rfl) behind).finds _ ends
    exact ⟨finish, onwardToo.2 ⟨rest, behind, splitRest, tellStretch_tellStretch .. ▸ ends⟩, same⟩
  · intro last ends
    obtain ⟨rest, behind, split, ends⟩ := onwardToo.1 ends
    obtain ⟨latter, foundRest, toldRest⟩ := Stretch.join_pieces split
    have foundAll : Stretch.read? true (front ++ more) = some (read ++ latter, behind) := by
      rw [whole]
      exact congrArg (Option.map _) foundRest
    obtain ⟨all, splitAll⟩ := Stretch.exists_split? foundAll
    obtain ⟨_, foundToo, told⟩ := Stretch.join_pieces splitAll
    cases foundAll.symm.trans foundToo
    rw [tellStretch_tellStretch] at ends
    obtain ⟨finish, ends, same⟩ := (agrees_of_join_eq (joined told toldRest rfl) behind).found _ ends
    exact ⟨finish, onward.2 ⟨all, behind, splitAll, ends⟩, same⟩

/-! ## What stands behind the root element -/

/-- What stands behind the root element of a document with faults is dropped. -/
theorem agrees_done {text left : List Char}
    (read : stream.step true = some (some { stream with stage := .done, text })) :
    stream.Agrees { stream with stage := .done, text := left } := by
  have ends : ∀ text : List Char, Ends { stream with stage := .done, text } { stream with stage := .done, text } :=
    fun _ => .finished rfl (.inr rfl)
  constructor
  · intro last reached
    obtain rfl := (ends text).eq (reached.of_step read)
    exact ⟨_, ends left, rfl, rfl⟩
  · intro last reached
    obtain rfl := (ends left).eq reached
    exact ⟨_, .onward read (ends text), rfl, rfl⟩

end Stream

end WordStream.Markup

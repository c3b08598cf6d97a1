import WordStream.Proofs.Markup.Decoding
import WordStream.Proofs.Markup.Finishing

/-!
# Texts that no document begins with

Behind a declaration neither another one may stand nor a mark of bytes, which would tell an encoding if the
document began there. No document ends that goes on with such a text.
-/

set_option autoImplicit false

namespace WordStream.Markup

/-- Whether a text is one that stands before no root element, whatever follows it. -/
inductive Stray : List Char → Prop
  | misplaced {first : Char} (rest : List Char) (noTag : first ≠ '<') (filled : isSpace first = false) :
      Stray (first :: rest)
  | undecodable (rest : List Char) : Stray ('<' :: undecodable :: rest)
  | declaration {text : List Char} (begins : Declaration.begins text = true) : Stray text

theorem begins_eq_true_iff {text : List Char} :
    Declaration.begins text = true ↔
      ∃ first rest, text = "<?xml".toList ++ first :: rest ∧ isSpace first = true := by
  unfold Declaration.begins
  split
  · next first rest dropped =>
      refine ⟨fun space => ⟨first, rest, Scan.dropExact?_eq_some_iff.1 dropped, space⟩, ?_⟩
      rintro ⟨first', rest', same, space⟩
      have split := Scan.dropExact?_eq_some_iff.1 dropped
      rw [same] at split
      cases List.append_cancel_left split
      exact space
  · next other =>
      refine iff_of_false nofun ?_
      rintro ⟨first, rest, same, -⟩
      exact other first rest (Scan.dropExact?_eq_some_iff.2 same)

theorem Stray.append {text : List Char} (stray : Stray text) (more : List Char) :
    Stray (text ++ more) := by
  cases stray with
  | misplaced rest noTag filled => exact .misplaced (rest ++ more) noTag filled
  | undecodable rest => exact .undecodable (rest ++ more)
  | declaration begins =>
      obtain ⟨first, rest, rfl, space⟩ := begins_eq_true_iff.1 begins
      rw [List.append_assoc]
      exact .declaration (begins_eq_true_iff.2 ⟨first, rest ++ more, rfl, space⟩)

theorem qualifiedName_undecodable (rest : List Char) (record : Record) :
    qualifiedName (undecodable :: rest) record = none := by
  rfl

theorem instruction_xml {first : Char} (space : isSpace first = true) (rest : List Char)
    (record : Record) : instruction ("xml".toList ++ first :: rest) record = none := by
  have named : Scan.name ("xml".toList ++ first :: rest) record =
      some (("xml", first :: rest), record) := by
    simp only [isSpace, Bool.or_eq_true, decide_eq_true_iff] at space
    rcases space with ((rfl | rfl) | rfl) | rfl <;> rfl
  have reserved : checkInstruction "xml" record = none := by
    have lower : "xml".map Char.toLower = "xml" := by decide +kernel
    unfold checkInstruction
    rw [lower]
    rfl
  rw [instruction, Scan.bind_run named]
  refine Option.eq_none_iff_forall_ne_some.2 fun result taken => ?_
  obtain ⟨_, _, _, checked, -⟩ := Scan.bind_eq_some_iff.1 taken
  rw [Scan.liftM_run, reserved] at checked
  cases checked

theorem startTag_undecodable (setting : Setting) (progress : Progress) (rest : List Char)
    (record : Record) :
    Content.startTag setting progress (undecodable :: rest) record = none := by
  refine Option.eq_none_iff_forall_ne_some.2 fun result taken => ?_
  obtain ⟨_, _, _, allowed, taken⟩ := Scan.bind_eq_some_iff.1 taken
  rw [Scan.guard_run] at allowed
  split at allowed
  · cases allowed
    obtain ⟨_, _, _, taken, -⟩ := Scan.bind_eq_some_iff.1 taken
    obtain ⟨_, _, _, named, -⟩ := Scan.bind_eq_some_iff.1 taken
    rw [qualifiedName_undecodable] at named
    cases named
  · cases allowed

/-- A mark that tells an encoding is read as a stray text in UTF-8. -/
theorem stray_of_ofMark? {bytes : List UInt8} (marked : Encoding.ofMark? bytes ≠ none) :
    Stray (Decoder.take {} bytes).1 := by
  have onward : ∀ (character : Char) (bytes : List UInt8),
      (Decoder.takeAfter .utf8 [character] [] bytes).1 = character :: (Decoder.take {} bytes).1 := by
    intro character bytes
    rw [Decoder.takeAfter_eq]
    rfl
  have one : ∀ {byte : UInt8} {character : Char},
      Decoder.step .utf8 [] byte = ([], [character]) → ∀ bytes,
        (Decoder.take {} (byte :: bytes)).1 = character :: (Decoder.take {} bytes).1 :=
    fun taken bytes => (congrArg Prod.fst (Decoder.takeAfter_cons taken [] bytes)).trans (onward _ bytes)
  have placed : ∀ {byte : UInt8}, Decoder.step .utf8 [] byte = ([], [undecodable]) → ∀ bytes,
      Stray (Decoder.take {} (byte :: bytes)).1 := by
    intro byte taken bytes
    rw [one taken]
    exact .misplaced _ (by decide) (by decide)
  unfold Encoding.ofMark? at marked
  split at marked
  · next rest =>
      have three := congrArg Prod.fst
        (Decoder.takeAfter_three (by decide : _ = some 2) (by decide : _ = true) (by decide : _ = true) [] rest :
          Decoder.takeAfter .utf8 [] [] (0xEF :: 0xBB :: 0xBF :: rest) = _)
      rw [onward] at three
      have text : (Decoder.take {} (0xEF :: 0xBB :: 0xBF :: rest)).1 = _ := three
      rw [text]
      exact .misplaced _ (by decide) (by decide)
  · exact placed rfl _
  · exact placed rfl _
  · exact placed rfl _
  · next rest =>
      rw [one (rfl : _ = ([], ['<'])), one (rfl : _ = ([], [undecodable]))]
      exact .undecodable _
  · exact absurd rfl marked

namespace Stream

variable {stream last : Stream}

theorem outside_of_misplaced (prolog : stream.stage = .prolog) {first : Char} {rest : List Char}
    (text : stream.text = first :: rest) (noTag : first ≠ '<') (filled : isSpace first = false) :
    stream.outside true = none := by
  have other : ('<' == first) = false := by simpa using noTag.symm
  have reached : stream.outside true = stream.startTag true := by
    unfold Stream.outside
    simp [text, filled, prolog, List.isPrefixOf, other]
  rw [reached]
  unfold Stream.startTag
  rw [text]
  split
  · next same => cases same; exact absurd rfl noTag
  · rfl

theorem outside_of_undecodable (prolog : stream.stage = .prolog) {rest : List Char}
    (text : stream.text = '<' :: undecodable :: rest) : stream.outside true = none := by
  have filled : isSpace '<' = false := by decide
  have reached : stream.outside true = stream.startTag true := by
    unfold Stream.outside
    simp [text, filled, prolog, List.isPrefixOf, WordStream.Markup.undecodable]
  have refused : stream.advance (fun progress => do
      Scan.exact "<"
      Content.startTag stream.setting progress) = none := by
    refine Option.bind_eq_none_iff.2 fun found ran => ?_
    obtain ⟨_, _, taken, -⟩ := run_eq_some_iff.1 ran
    rw [text] at taken
    have tagged : Content.startTag stream.setting stream.progress (undecodable :: rest)
        stream.record = _ := taken
    rw [startTag_undecodable] at tagged
    cases tagged
  rw [reached]
  unfold Stream.startTag
  rw [text, refused]
  rfl

theorem outside_of_declaration (begins : Declaration.begins stream.text = true) :
    stream.outside true = none := by
  obtain ⟨first, rest, text, space⟩ := begins_eq_true_iff.1 begins
  have filled : isSpace '<' = false := by decide
  have reached : stream.outside true = stream.skip true "<?" "?>" instruction := by
    unfold Stream.outside
    simp [text, filled, List.isPrefixOf]
  have refused : stream.run (do Scan.exact "<?"; instruction) = none := by
    refine Option.eq_none_iff_forall_ne_some.2 fun found ran => ?_
    obtain ⟨_, _, taken, -⟩ := run_eq_some_iff.1 ran
    rw [text] at taken
    cases (instruction_xml space rest stream.record).symm.trans taken
  rw [reached, Stream.skip, refused]
  rfl

/-- Nothing is read of a stray text before the root element. -/
theorem step_of_stray (prolog : stream.stage = .prolog) (stray : Stray stream.text) :
    stream.step true = none := by
  have outside : stream.step true = stream.outside true := by
    rw [Stream.step, prolog]
  rw [outside]
  generalize text : stream.text = held at stray
  cases stray with
  | misplaced rest noTag filled => exact outside_of_misplaced prolog text noTag filled
  | undecodable rest => exact outside_of_undecodable prolog text
  | declaration begins => exact outside_of_declaration (text ▸ begins)

theorem Ends.not_stray (ends : stream.Ends last) (prolog : stream.stage = .prolog) :
    ¬Stray stream.text := by
  intro stray
  have refused := step_of_stray prolog stray
  cases ends with
  | finished waits => cases refused.symm.trans waits
  | onward read => cases refused.symm.trans read

end Stream

end WordStream.Markup

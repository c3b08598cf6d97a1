import WordStream.Proofs.Markup.Standing

/-!
# Content of documents that stand alone

Every part of the content of a document that stands alone is read in the same way where it need not. This
holds for a document that is read as it arrives, where values are told as they are written.
-/

set_option autoImplicit false

namespace WordStream.Markup

open Scan

/-! ## Start tags -/

instance : Steady qualifiedName where
  matching := by
    unfold qualifiedName
    refine Matches.after fun characters => ?_
    cases QualifiedName.split? characters with
    | some name => exact matches_pure id name
    | none => exact Steady.matching

namespace Scope

instance (qualifier space : String) : Reader.Steady (checkReference qualifier space) := by
  unfold checkReference
  infer_instance

instance (spaces : Scope) (qualifier space : String) :
    Reader.Steady (declare spaces qualifier space) := by
  unfold declare
  infer_instance

end Scope

namespace StartTag

variable (declarations : Declarations)

theorem nextAttribute_matches (depth : Nat) (element : QualifiedName)
    (done : List Attribute × Scope) :
    (nextAttribute declarations depth element done).Matches (Option.map id)
      (nextAttribute declarations.relaxed depth element done) := by
  rw [Option.map_id]
  refine Matches.after fun _ => Matches.after fun _ => Matches.after fun _ =>
    Matches.ite (matches_pure id none) (Matches.after fun _ => ?_)
  refine Matches.after fun name => Matches.after fun _ => Matches.after fun _ =>
    Matches.after fun _ => Matches.after fun literal => ?_
  refine (matches_liftM (declarations.attributeValue_matches depth _ literal)).bind fun value => ?_
  dsimp only
  cases name.declared? with
  | some qualifier => exact Steady.matching
  | none => exact Steady.matching

theorem scan_matches (depth : Nat) :
    (scan declarations depth).Matches id (scan declarations.relaxed depth) := by
  refine Matches.after fun name => ?_
  refine (Matches.repeating (nextAttribute_matches declarations depth name) ([], [])).bind
    fun taken => ?_
  exact Steady.matching

/-! ## What start tags stand for -/

instance (entry : Attribute) : Reader.Steady (payForDefault entry) := by
  unfold payForDefault
  infer_instance

instance (spaces : Scope) (entries : List Attribute) :
    Reader.Steady (addDefaultSpaces spaces entries) := by
  induction entries generalizing spaces with
  | nil => exact inferInstanceAs (Reader.Steady (pure spaces))
  | cons entry entries ih =>
      unfold addDefaultSpaces
      cases entry.name.declared? <;> infer_instance

instance (scope : Scope) (met : Met) (faults : Nat) (entries : List Attribute) :
    Reader.Steady (checkNames scope met faults entries) := by
  induction entries generalizing met faults with
  | nil => exact inferInstanceAs (Reader.Steady (pure (met, faults)))
  | cons entry entries ih =>
      unfold checkNames
      dsimp only
      cases scope.ofAttribute? entry.name.qualifier with
      | none => exact ih met faults
      | some space =>
          dsimp only
          cases met.lookup (space, entry.name.localName) <;> infer_instance

instance (scope : Scope) (met : Met) (entries : List Attribute) :
    Reader.Steady (addDefaults scope met entries) := by
  induction entries generalizing met with
  | nil => exact inferInstanceAs (Reader.Steady (pure []))
  | cons entry entries ih =>
      unfold addDefaults
      dsimp only
      cases met.lookup ((scope.ofAttribute? entry.name.qualifier).getD "", entry.name.localName) <;>
        infer_instance

instance (outer : Scope) (tag : StartTag) : Reader.Steady (resolve declarations outer tag) where
  matching := by
    refine Reader.Matches.after fun spaces => Reader.Matches.after fun _ =>
      Reader.Matches.after fun ⟨met, faults⟩ => ?_
    exact Reader.Steady.matching

end StartTag

/-! ## Stretches of text -/

namespace Stretch

/-- What is left of a stretch is not longer than it was. -/
theorem length_le_of_split? {final plain : Bool} {stretch done : Stretch} {text left : List Char}
    (split : split? final plain stretch text = some (done, left)) : left.length ≤ text.length := by
  fun_induction split? final plain stretch text with
  | case1 => cases split; exact Nat.le_refl _
  | case2 _ _ rest _ _ ih => exact Nat.le_succ_of_le (Nat.le_succ_of_le (ih split))
  | case3 => cases split; exact Nat.le_refl _
  | case4 => cases split
  | case5 => cases split; exact Nat.le_refl _
  | case6 =>
      rename_i ih
      exact Nat.le_succ_of_le (ih split)
  | case7 =>
      rename_i ih
      exact Nat.le_succ_of_le (ih split)
  | case8 => cases split

/-- A stretch takes its first character, unless that is a bracket for which more text has to come. -/
theorem length_lt_of_split? {final plain : Bool} {stretch done : Stretch} {character : Char}
    {rest left : List Char} (split : split? final plain stretch (character :: rest) = some (done, left))
    (noTag : character ≠ '<') (noReference : character ≠ '&')
    (closed : ¬(character = ']' ∧ isOpenBracket final rest = true)) :
    left.length < (character :: rest).length := by
  unfold split? at split
  split at split
  · next same => cases same
  · next same =>
      cases same
      exact Nat.lt_succ_of_le (Nat.le_succ_of_le (length_le_of_split? split))
  · next same =>
      cases same
      rw [if_neg (by simp [noTag, noReference])] at split
      split at split
      · cases split
      split at split
      · next opened => exact absurd (by simpa using opened) closed
      split at split
      · exact Nat.lt_succ_of_le (length_le_of_split? split)
      split at split
      · exact Nat.lt_succ_of_le (length_le_of_split? split)
      · cases split

theorem scan_run (final : Bool) (text : List Char) (record : Record) :
    scan final text record =
      (split? final true {} text).map fun parts => ((parts.1.pieces, parts.2), record) := by
  rw [scan, bind_run rest_run]
  cases split? final true {} text <;> rfl

instance (final : Bool) : Steady (scan final) :=
  .of_run (fun text => (split? final true {} text).map fun parts => (parts.1.pieces, parts.2))
    (fun text record => by rw [scan_run, Option.map_map]; rfl)
    fun text _ _ took => by
      obtain ⟨parts, split, same⟩ := Option.map_eq_some_iff.1 took
      cases same
      exact length_le_of_split? split

end Stretch

/-! ## Content -/

/-- The setting of a document that need not stand alone. -/
def Setting.relaxed (setting : Setting) : Setting :=
  { setting with declarations := setting.declarations.relaxed }

namespace Content

instance (progress : Progress) : Steady (literalSection progress) := by
  unfold literalSection
  infer_instance

instance (element : Element) (outer : List Element) (progress : Progress) :
    Steady (endTag element outer progress) := by
  unfold endTag
  infer_instance

variable {setting : Setting}

theorem told_relaxed (streaming : setting.mode = .streaming) (tag : ResolvedTag) :
    tag.told setting.relaxed = tag.told setting := by
  have mode : setting.relaxed.mode = .streaming := streaming
  simp only [ResolvedTag.told, streaming, mode]

theorem startTag_matches (streaming : setting.mode = .streaming) (progress : Progress) :
    (startTag setting progress).Matches id (startTag setting.relaxed progress) := by
  have waived : (decide (setting.mode = .loading) && !setting.inEntity) = false := by
    rw [streaming]
    rfl
  have waivedToo : (decide (setting.relaxed.mode = .loading) && !setting.relaxed.inEntity) = false := waived
  refine Matches.after fun _ => ?_
  refine (StartTag.scan_matches setting.declarations setting.nesting).bind fun written => ?_
  refine (matches_liftM Reader.Steady.matching).bind fun resolved => ?_
  simp only [waived, waivedToo, told_relaxed streaming, id, Bool.false_eq_true, if_false]
  exact Steady.matching

instance (final : Bool) (progress : Progress) : Steady (stretch final progress) := by
  unfold stretch
  infer_instance

theorem stretch_run (final : Bool) (progress : Progress) (text : List Char) (record : Record) :
    stretch final progress text record =
      (Stretch.split? final true {} text).map fun parts =>
        (({ progress with calls := parts.1.pieces.map .data ++ progress.calls }, parts.2), record) := by
  have scanned := Stretch.scan_run final text record
  cases split : Stretch.split? final true {} text with
  | none =>
      rw [split] at scanned
      exact Option.bind_eq_none_iff.2 fun _ given => by rw [scanned] at given; cases given
  | some parts =>
      rw [split] at scanned
      exact bind_run scanned

/-- A stretch takes something where no tag and no reference stands, unless more text may come behind a bracket. -/
theorem length_lt_of_stretch {final : Bool} {progress later : Progress} {text left : List Char}
    {record after : Record} (taken : stretch final progress text record = some ((later, left), after))
    (filled : ¬text.isEmpty = true) (noTag : dropExact? "<".toList text = none)
    (noReference : dropExact? "&".toList text = none)
    (ended : final = true ∨ text ≠ [']'] ∧ text ≠ [']', ']']) :
    left.length < text.length := by
  rw [stretch_run] at taken
  obtain ⟨parts, split, same⟩ := Option.map_eq_some_iff.1 taken
  cases same
  cases text with
  | nil => exact absurd rfl filled
  | cons character rest =>
      refine Stretch.length_lt_of_split? split ?_ ?_ ?_
      · rintro rfl
        cases noTag
      · rintro rfl
        cases noReference
      · rintro ⟨rfl, opened⟩
        rcases ended with rfl | ended
        · unfold Stretch.isOpenBracket at opened
          split at opened <;> cases opened
        · unfold Stretch.isOpenBracket at opened
          split at opened
          · exact ended.1 rfl
          · exact ended.2 rfl
          · cases opened

/-- Whether an expansion gives the same for a document that need not stand alone. -/
def Unmoved (expansion : Expansion) : Prop :=
  ∀ {setting : Setting} (replacement : List Char), setting.mode = .streaming →
    (expansion setting replacement).Matches id (expansion setting.relaxed replacement)

variable {expansion : Expansion}

theorem expandTold_matches (unmoved : Unmoved expansion) (streaming : setting.mode = .streaming)
    (progress : Progress) (replacement : List Char) :
    (expandTold expansion setting progress replacement).Matches id
      (expandTold expansion setting.relaxed progress replacement) := by
  refine Reader.Matches.after fun _ => (unmoved replacement ?_).bind fun read => Reader.matches_pure id _
  exact streaming

theorem reference_matches (unmoved : Unmoved expansion) (streaming : setting.mode = .streaming)
    (progress : Progress) :
    (reference expansion setting progress).Matches id
      (reference expansion setting.relaxed progress) := by
  have entities : setting.relaxed.declarations.entities = setting.declarations.entities := rfl
  have mode : setting.relaxed.mode = setting.mode := rfl
  refine Matches.after fun body => Matches.after fun reference => ?_
  cases reference with
  | code character => exact matches_pure id _
  | predefined name character => exact matches_pure id _
  | entity name =>
      dsimp only
      rw [entities, mode, streaming]
      rcases setting.declarations.entities.lookup name with _ | replacement | _ | _
      · exact (matches_liftM setting.declarations.passOver_matches).bind fun _ => matches_pure id _
      · exact matches_liftM (expandTold_matches unmoved streaming progress replacement)
      · exact matches_pure id progress
      · exact matches_failure

theorem part_matches (unmoved : Unmoved expansion) (streaming : setting.mode = .streaming)
    (progress : Progress) :
    (part expansion setting progress).Matches (Option.map id)
      (part expansion setting.relaxed progress) := by
  have kept : ∀ scan : Scan Progress, Steady scan →
      (some <$> scan).Matches (Option.map id) (some <$> scan) :=
    fun _ steady => steady.matching.map_some
  refine Matches.after fun text => Matches.ite (matches_pure _ none) ?_
  refine Matches.after fun _ => Matches.ite ?_ (Matches.after fun _ => Matches.ite ?_ ?_)
  · cases progress.elements with
    | nil => exact matches_pure _ none
    | cons element outer => exact Matches.after fun _ => kept _ inferInstance
  · exact Matches.after fun _ => matches_pure _ _
  refine Matches.after fun _ => Matches.ite (kept _ inferInstance) ?_
  refine Matches.after fun _ => Matches.ite (Matches.after fun _ => matches_pure _ _) ?_
  refine Matches.after fun _ => Matches.ite (startTag_matches streaming progress).map_some ?_
  refine Matches.after fun _ => Matches.ite (reference_matches unmoved streaming progress).map_some ?_
  exact kept _ inferInstance

/-- A part takes something, unless none is left. -/
theorem length_lt_of_part (unmoved : Unmoved expansion) (streaming : setting.mode = .streaming)
    {progress later : Progress} {text left : List Char} {record after : Record}
    (taken : part expansion setting progress text record = some ((some later, left), after)) :
    left.length < text.length := by
  obtain ⟨_, _, _, same, taken⟩ := bind_eq_some_iff.1 taken
  cases same
  split at taken
  · cases taken
  next filled =>
    obtain ⟨_, _, _, same, taken⟩ := bind_eq_some_iff.1 taken
    cases same
    split at taken
    · cases elements : progress.elements with
      | nil =>
          rw [elements] at taken
          cases taken
      | cons element outer =>
          rw [elements] at taken
          exact length_lt_of_exact (by decide) Steady.matching.shortens taken
    next other =>
      rcases length_lt_of_taken (by decide) Steady.matching.shortens taken with fewer | ⟨_, taken⟩
      · exact fewer
      rcases length_lt_of_taken (by decide) Steady.matching.shortens taken with fewer | ⟨_, taken⟩
      · exact fewer
      rcases length_lt_of_taken (by decide) Steady.matching.shortens taken with fewer | ⟨_, taken⟩
      · exact fewer
      rcases length_lt_of_taken (by decide) (startTag_matches streaming progress).map_some.shortens taken with
        fewer | ⟨noTag, taken⟩
      · exact fewer
      rcases length_lt_of_taken (by decide) (reference_matches unmoved streaming progress).map_some.shortens taken
        with fewer | ⟨noReference, taken⟩
      · exact fewer
      rw [map_eq_bind] at taken
      obtain ⟨_, _, _, taken, same⟩ := bind_eq_some_iff.1 taken
      cases same
      exact length_lt_of_stretch taken filled noTag noReference (.inl rfl)

theorem scan_matches (unmoved : Unmoved expansion) (streaming : setting.mode = .streaming) :
    (scan expansion setting).Matches id (scan expansion setting.relaxed) :=
  (Matches.repeating (part_matches unmoved streaming) {}).bind fun _ => Steady.matching

theorem expand_matches (depth : Nat) : Unmoved (expand depth) := by
  induction depth with
  | zero => exact fun _ _ => Reader.matches_failure
  | succ depth ih =>
      intro setting replacement streaming
      let within : Setting := { setting with nesting := depth }
      have relaxed : (scan (expand depth) within).Matches id (scan (expand depth) within.relaxed) :=
        scan_matches ih streaming
      exact (relaxed.along replacement).bind fun ⟨_, _⟩ => Reader.Steady.matching

theorem nextPart_matches (streaming : setting.mode = .streaming) (progress : Progress) :
    (nextPart setting progress).Matches (Option.map id) (nextPart setting.relaxed progress) :=
  part_matches (expand_matches setting.nesting) streaming progress

end Content

end WordStream.Markup

import WordStream.Markup.Content
import WordStream.Proofs.Markup.Matching

/-!
# Documents that stand alone
-/

set_option autoImplicit false

namespace WordStream.Markup

open Scan

/-- The declarations of a document that need not stand alone. -/
def Declarations.relaxed (declarations : Declarations) : Declarations :=
  { declarations with standalone := false }

/-! ## Comments and instructions -/

instance : Steady comment := by
  unfold comment
  infer_instance

instance (name : String) : Reader.Steady (requirePlain name) := by
  unfold requirePlain
  infer_instance

instance (name : String) : Reader.Steady (checkInstruction name) := by
  unfold checkInstruction
  infer_instance

instance : Steady instruction := by
  unfold instruction
  infer_instance

namespace Doctype

instance (accept : Char → Bool) : Steady (literal accept) := by
  unfold literal
  infer_instance

instance : Steady externalPlace? := by
  unfold externalPlace?
  infer_instance

instance : Steady close := by
  unfold close
  infer_instance

instance : Steady occurrence := by
  unfold occurrence
  infer_instance

instance (depth : Nat) : Steady (group depth) := by
  induction depth with
  | zero => exact inferInstanceAs (Steady failure)
  | succ depth ih =>
      have part : Steady (do
          Scan.space
          if ← Scan.taken "(" then group depth else discard Scan.name
          occurrence
          Scan.space : Scan Unit) := inferInstance
      exact .after fun _ => .after fun _ => inferInstance

instance : Steady contentModel := by
  unfold contentModel
  refine .after fun _ => .ite inferInstance (.after fun _ => .ite inferInstance ?_)
  exact .after fun _ => .after fun _ => .after fun _ => .ite inferInstance inferInstance

instance (item : Scan String) [Steady item] : Steady (alternatives item) := by
  have next : ∀ listed : List String, Steady (do
      Scan.space
      let name ← item
      Reader.require !(listed.contains name)
      Scan.space
      return name :: listed : Scan (List String)) := fun _ => inferInstance
  exact .after fun _ => .after fun _ => inferInstance

instance {α : Type} (keywords : List (String × α)) : Steady (takenAny? keywords) := by
  induction keywords with
  | nil => exact inferInstanceAs (Steady (pure none))
  | cons keyword keywords ih =>
      unfold takenAny?
      infer_instance

instance : Steady nameToken := by
  unfold nameToken
  infer_instance

instance : Steady attributeType where
  matching := by
    unfold attributeType
    refine Matches.after fun type => ?_
    cases type with
    | some type => exact matches_pure id type
    | none => exact Steady.matching

end Doctype

/-! ## Values -/

namespace Declarations

variable (declarations : Declarations)

theorem forgives_relaxed (forgiven : declarations.forgives = true) :
    declarations.relaxed.forgives = true := by
  rw [forgives, Bool.and_eq_true] at forgiven
  rw [forgives, relaxed, forgiven.1]
  rfl

theorem passOver_matches : declarations.passOver.Matches id declarations.relaxed.passOver :=
  (Reader.matches_guard declarations.forgives_relaxed).bind fun _ => Reader.Steady.matching

section Values

variable {expand onward : List Char → Reader (List Char)}

theorem pieceValue_matches (expandMatches : ∀ text, (expand text).Matches id (onward text))
    (form : ValueForm) (piece : Piece) :
    (declarations.pieceValue expand form piece).Matches id
      (declarations.relaxed.pieceValue onward form piece) := by
  have entities : declarations.relaxed.entities = declarations.entities := rfl
  cases piece with
  | plain character =>
      rw [pieceValue, pieceValue]
      exact Reader.Steady.matching
  | reference reference =>
      cases reference with
      | code character => exact Reader.matches_pure id _
      | predefined name character => exact Reader.matches_pure id _
      | entity name =>
          rw [pieceValue, pieceValue, entities]
          rcases declarations.entities.lookup name with _ | replacement | _ | _
          · exact declarations.passOver_matches.bind fun _ => Reader.Steady.matching
          · exact (expandMatches replacement).bind fun _ => Reader.Steady.matching
          · exact Reader.matches_failure
          · exact Reader.matches_failure

theorem literalValue_matches (expandMatches : ∀ text, (expand text).Matches id (onward text))
    (form : ValueForm) (literal : List Char) :
    (declarations.literalValue expand form literal).Matches id
      (declarations.relaxed.literalValue onward form literal) := by
  refine Reader.Matches.after fun pieces => ?_
  refine Reader.Matches.bind ?_ fun values => Reader.Steady.matching
  exact Reader.matches_mapM (declarations.pieceValue_matches expandMatches form) pieces

end Values

theorem entityValue_matches (depth : Nat) (replacement : List Char) :
    (declarations.entityValue depth replacement).Matches id
      (declarations.relaxed.entityValue depth replacement) := by
  induction depth generalizing replacement with
  | zero => exact Reader.matches_failure
  | succ depth ih =>
      exact Reader.Matches.after fun _ => declarations.literalValue_matches ih .resolved replacement

theorem attributeValue_matches (depth : Nat) (form : ValueForm) (literal : List Char) :
    (declarations.attributeValue depth form literal).Matches id
      (declarations.relaxed.attributeValue depth form literal) :=
  declarations.literalValue_matches (declarations.entityValue_matches depth) form
    (unifyLines literal)

end Declarations

/-! ## Document types -/

namespace Doctype

open Declarations (relaxed)

variable (declarations : Declarations)

theorem entityLiteral_matches (written : List Char) :
    (entityLiteral declarations written).Matches (Prod.map id relaxed)
      (entityLiteral declarations.relaxed written) := by
  unfold entityLiteral
  refine Reader.Matches.after fun _ => Reader.Matches.after fun text => ?_
  refine Reader.Matches.ite (Reader.matches_pure _ _) (Reader.Matches.after fun name => ?_)
  refine (Reader.matches_guard fun allowed => ?_).bind fun _ => Reader.Matches.after fun _ =>
    Reader.matches_pure (Prod.map id relaxed) _
  rw [Bool.and_eq_true] at allowed
  rw [Bool.and_eq_true]
  exact ⟨allowed.1, rfl⟩

theorem declareEntity_matches (name : String) (entity : Entity) :
    (declareEntity declarations name entity).Matches relaxed
      (declareEntity declarations.relaxed name entity) := by
  have added : (pure (declarations.addEntity name entity) : Reader Declarations).Matches relaxed
      (pure (declarations.relaxed.addEntity name entity)) := Reader.matches_pure relaxed _
  unfold declareEntity
  rcases Reference.predefinedNames.lookup name with _ | character
  · exact added
  · cases entity with
    | text text => exact Reader.Matches.ite (Reader.Matches.after fun _ => added) added
    | external => exact Reader.Matches.after fun _ => added
    | unparsed => exact Reader.Matches.after fun _ => added

theorem entity_matches :
    (entity declarations).Matches relaxed (entity declarations.relaxed) := by
  refine Matches.after fun _ => Matches.after fun parameter => Matches.when fun _ => ?_
  refine Matches.after fun name => Matches.after fun _ => Matches.after fun _ =>
    Matches.after fun place => ?_
  cases place with
  | some place =>
      refine Matches.after fun _ => Matches.ite (Matches.after fun _ => matches_pure relaxed _) ?_
      refine Matches.after fun separated => Matches.after fun _ => Matches.ite ?_ ?_
      · refine Matches.after fun _ => Matches.after fun format => Matches.after fun _ =>
          Matches.after fun _ => ?_
        exact matches_liftM (declareEntity_matches declarations name .unparsed)
      · refine Matches.after fun _ => ?_
        exact matches_liftM (declareEntity_matches declarations name .external)
  | none =>
      refine Matches.after fun written =>
        (matches_liftM (entityLiteral_matches declarations written)).bind fun given => ?_
      refine Matches.after fun _ => Matches.ite (matches_pure relaxed _) ?_
      exact matches_liftM (declareEntity_matches given.2 name (.text given.1))

theorem element_matches :
    (element declarations).Matches relaxed (element declarations.relaxed) :=
  Matches.after fun _ => Matches.after fun _ => Matches.after fun _ => Matches.after fun _ =>
    Matches.after fun _ => Matches.after fun _ => matches_pure relaxed _

theorem format_matches :
    (format declarations).Matches relaxed (format declarations.relaxed) := by
  have closed : ∀ name : String,
      (do
        close
        Reader.require !(declarations.formats.contains name)
        return { declarations with formats := name :: declarations.formats } :
          Scan Declarations).Matches relaxed
        (do
          close
          Reader.require !(declarations.formats.contains name)
          return { declarations.relaxed with formats := name :: declarations.formats }) := fun _ =>
    Matches.after fun _ => Matches.after fun _ => matches_pure relaxed _
  refine Matches.after fun _ => Matches.after fun name => Matches.after fun _ =>
    Matches.after fun _ => Matches.after fun _ => Matches.ite ?_ ?_
  · exact Matches.after fun _ => Matches.after fun _ => closed name
  · refine Matches.after fun _ => Matches.after fun _ => Matches.after fun _ =>
      Matches.after fun _ => Matches.after fun _ => Matches.ite ?_ (closed name)
    exact Matches.after fun _ => Matches.after fun _ => closed name

theorem defaultValue_matches (depth : Nat) (type : AttributeType) :
    (defaultValue declarations depth type).Matches id
      (defaultValue declarations.relaxed depth type) := by
  refine Matches.after fun _ => Matches.ite Steady.matching (Matches.after fun _ => ?_)
  refine Matches.ite Steady.matching (Matches.after fun _ => Matches.when fun _ => ?_)
  refine Matches.after fun literal => ?_
  exact (matches_liftM (declarations.attributeValue_matches depth .kept literal)).bind fun _ =>
    Steady.matching

theorem relaxed_addRule (rule : AttributeRule) :
    (declarations.addRule rule).relaxed = declarations.relaxed.addRule rule := by
  unfold Declarations.addRule
  split
  · next present => exact (if_pos present).symm
  · next absent => exact (if_neg absent).symm

theorem declareAttribute_matches (rule : AttributeRule) :
    (declareAttribute declarations rule).Matches relaxed
      (declareAttribute declarations.relaxed rule) := by
  have added : (pure (declarations.addRule rule) : Reader Declarations).Matches relaxed
      (pure (declarations.relaxed.addRule rule)) := by
    rw [← relaxed_addRule]
    exact Reader.matches_pure relaxed _
  exact Reader.Matches.after fun _ => Reader.Matches.after fun _ =>
    Reader.Matches.ite (Reader.Matches.after fun _ => added) (Reader.Matches.after fun _ => added)

theorem attributeRule_matches (depth : Nat) (element : String) :
    (attributeRule depth element declarations).Matches (Option.map relaxed)
      (attributeRule depth element declarations.relaxed) := by
  refine Matches.after fun _ => Matches.after fun _ => Matches.ite (matches_pure _ none) ?_
  refine Matches.after fun _ => Matches.after fun name => Matches.after fun _ =>
    Matches.after fun type => Matches.after fun _ => ?_
  refine (defaultValue_matches declarations depth type).bind fun default => ?_
  exact (matches_liftM (declareAttribute_matches declarations _)).bind fun declared =>
    matches_pure (Option.map relaxed) (some declared)

theorem declaration_matches (depth : Nat) :
    (declaration depth declarations).Matches relaxed (declaration depth declarations.relaxed) := by
  have unchanged : (pure declarations : Scan Declarations).Matches relaxed
      (pure declarations.relaxed) := matches_pure relaxed declarations
  refine Matches.after fun _ => Matches.ite ?_ (Matches.after fun _ => Matches.ite ?_ ?_)
  · exact Matches.after fun _ => entity_matches declarations
  · exact Matches.after fun _ => Matches.after fun element =>
      Matches.repeating (fun declared => attributeRule_matches declared depth element) declarations
  refine Matches.after fun _ => Matches.ite (element_matches declarations) ?_
  refine Matches.after fun _ => Matches.ite (format_matches declarations) ?_
  refine Matches.after fun _ => Matches.ite (Matches.after fun _ => unchanged) ?_
  refine Matches.after fun _ => Matches.ite ?_ unchanged
  exact Matches.after fun _ => Matches.after fun _ => unchanged

theorem parameter_matches {expand onward : Declarations → Scan Declarations}
    (expandMatches : ∀ declarations, (expand declarations).Matches relaxed
      (onward declarations.relaxed)) :
    (parameter expand declarations).Matches relaxed (parameter onward declarations.relaxed) := by
  have parameters : declarations.relaxed.parameters = declarations.parameters := rfl
  refine Matches.after fun name => Matches.after fun _ => ?_
  dsimp only
  rw [parameters]
  rcases declarations.parameters.lookup name with _ | _ | text
  · exact (matches_liftM (Declarations.passOver_matches { declarations with incomplete := true })).bind
      fun _ => matches_pure relaxed _
  · exact matches_pure relaxed _
  · refine Matches.after fun _ => ?_
    refine (matches_liftM ((expandMatches { declarations with incomplete := true }).along text)).bind
      fun result => ?_
    exact Matches.after fun _ => matches_pure relaxed _

theorem nextDeclaration_matches (depth : Nat) {refer onward : Declarations → Scan Declarations}
    (referMatches : (refer declarations).Matches relaxed (onward declarations.relaxed)) :
    (nextDeclaration depth refer declarations).Matches (Option.map relaxed)
      (nextDeclaration depth onward declarations.relaxed) := by
  refine Matches.after fun _ => Matches.after fun next => ?_
  split
  · exact matches_pure _ none
  · exact matches_pure _ none
  · exact Matches.after fun _ => referMatches.map_some
  · exact (declaration_matches declarations depth).map_some

theorem declarationsWithin_matches (depth : Nat) :
    (declarationsWithin depth declarations).Matches relaxed
      (declarationsWithin depth declarations.relaxed) := by
  induction depth generalizing declarations with
  | zero =>
      exact Matches.repeating (fun declared => nextDeclaration_matches declared 0 matches_failure)
        declarations
  | succ depth ih =>
      exact Matches.repeating
        (fun declared => nextDeclaration_matches declared _ (parameter_matches declared ih)) declarations

/-- The declarations of a subset are taken up to its end. -/
theorem restOfSubset_matches :
    (do
      let extended ← declarationsWithin maxNesting declarations
      Scan.exact "]"
      close
      return extended : Scan Declarations).Matches relaxed
      (do
        let extended ← declarationsWithin maxNesting declarations.relaxed
        Scan.exact "]"
        close
        return extended) :=
  (declarationsWithin_matches declarations maxNesting).bind fun _ =>
    Matches.after fun _ => Matches.after fun _ => matches_pure relaxed _

theorem subset_matches :
    (subset declarations).Matches relaxed (subset declarations.relaxed) :=
  Matches.after fun _ => restOfSubset_matches declarations

theorem length_lt_of_subset {text left : List Char} {record later : Record} {extended : Declarations}
    (taken : subset declarations text record = some ((extended, left), later)) :
    left.length < text.length :=
  length_lt_of_exact (by decide) (restOfSubset_matches declarations).shortens taken

theorem head_matches :
    (head declarations).Matches (Prod.map relaxed id) (head declarations.relaxed) := by
  refine Matches.after fun _ => Matches.after fun _ => Matches.after fun _ =>
    Matches.after fun place => Matches.after fun _ => Matches.after fun _ => ?_
  exact Matches.ite (matches_pure _ _) (Matches.after fun _ => matches_pure _ _)

end Doctype

end WordStream.Markup

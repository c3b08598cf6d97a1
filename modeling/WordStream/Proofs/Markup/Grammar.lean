import WordStream.Proofs.Markup.Lasting
import WordStream.Proofs.Markup.Parts

/-!
# The grammar in a text that goes on

Start tags, comments, instructions and document types are taken in the same way wherever more follows. Those that
end with a mark of their own need no more text to tell how they are taken.
-/

set_option autoImplicit false
set_option synthInstance.maxSize 1000

namespace WordStream.Markup

open Scan

variable {stop : Char} [Stop stop]

/-! ## Comments and instructions -/

instance : Closing '>' comment := by
  unfold comment
  infer_instance

instance : Mark "?>" := ⟨by decide, by decide⟩

/-- An instruction may end behind its name, where the test for its mark takes that. -/
instance : Closing '>' instruction := by
  unfold instruction
  refine .after fun name => .after fun _ => closing_taken (by decide) ?_ ?_
  · exact inferInstanceAs (Idle (pure ()))
  · exact inferInstanceAs (Closing '>' (do
      someSpace
      let text ← upTo "?>"
      guard (text.all isDocumentCharacter)))

namespace Doctype

instance (accept : Char → Bool) : Lasting stop (literal accept) := by
  unfold literal
  infer_instance

instance : Mark "SYSTEM" := ⟨by decide, by decide⟩

instance : Mark "PUBLIC" := ⟨by decide, by decide⟩

instance : Lasting stop externalPlace? := by
  unfold externalPlace?
  infer_instance

instance : Closing '>' close := by
  unfold close
  infer_instance

instance : Mark "?" := ⟨by decide, by decide⟩

instance : Mark "*" := ⟨by decide, by decide⟩

instance : Mark "+" := ⟨by decide, by decide⟩

instance : Lasting stop occurrence := by
  unfold occurrence
  infer_instance

instance : Mark "(" := ⟨by decide, by decide⟩

instance : Mark "|" := ⟨by decide, by decide⟩

instance : Mark "," := ⟨by decide, by decide⟩

instance {condition : Prop} [Decidable condition] {first second : String} [Mark first] [Mark second] :
    Mark (if condition then first else second) := by
  split <;> infer_instance

instance (depth : Nat) : Lasting stop (group depth) := by
  induction depth with
  | zero => exact inferInstanceAs (Lasting stop failure)
  | succ depth ih =>
      unfold group
      infer_instance

instance : Mark "EMPTY" := ⟨by decide, by decide⟩

instance : Mark "ANY" := ⟨by decide, by decide⟩

instance : Mark "#PCDATA" := ⟨by decide, by decide⟩

instance : Lasting stop contentModel := by
  unfold contentModel
  refine .after fun _ => .ite inferInstance (.after fun _ => .ite inferInstance ?_)
  exact .after fun _ => .after fun _ => .after fun _ => .ite inferInstance inferInstance

instance (declarations : Declarations) : Lasting '>' (element declarations) := by
  unfold element
  infer_instance

instance (item : Scan String) [Steady item] [Lasting stop item] : Lasting stop (alternatives item) := by
  have next : ∀ listed : List String, Steady (do
      Scan.space
      let name ← item
      Reader.require !(listed.contains name)
      Scan.space
      return name :: listed : Scan (List String)) := fun _ => inferInstance
  have nextLasts : ∀ listed : List String, Lasting stop (do
      Scan.space
      let name ← item
      Reader.require !(listed.contains name)
      Scan.space
      return name :: listed : Scan (List String)) := fun _ => inferInstance
  exact .after fun _ => .after fun _ => inferInstance

theorem lasting_takenAny? {α : Type} (keywords : List (String × α))
    (marks : ∀ keyword ∈ keywords, Mark keyword.1) : Lasting stop (takenAny? keywords) := by
  induction keywords with
  | nil => exact inferInstanceAs (Lasting stop (pure none))
  | cons keyword keywords ih =>
      have mark := marks keyword List.mem_cons_self
      have others := ih fun other member => marks other (List.mem_cons_of_mem keyword member)
      unfold takenAny?
      infer_instance

instance : Lasting stop (takenAny? typeKeywords) := by
  refine lasting_takenAny? typeKeywords fun keyword member => ?_
  have plain : (typeKeywords.all fun keyword => !keyword.1.toList.isEmpty &&
      keyword.1.toList.all fun character => character != '>' && character != '[') = true := by
    decide
  have checked := List.all_eq_true.1 plain keyword member
  rw [Bool.and_eq_true, Bool.not_eq_true', List.isEmpty_eq_false_iff] at checked
  refine ⟨checked.1, List.all_eq_true.2 fun stop within => ?_⟩
  exact List.all_eq_true.1 checked.2 stop (List.dropLast_subset _ within)

instance : Lasting stop nameToken := by
  unfold nameToken
  infer_instance

instance : Mark "NOTATION" := ⟨by decide, by decide⟩

instance : Lasting stop attributeType := by
  unfold attributeType
  refine .after fun type => ?_
  cases type with
  | some type => exact inferInstanceAs (Lasting stop (pure type))
  | none => exact .after fun _ => inferInstance

instance : Mark "#REQUIRED" := ⟨by decide, by decide⟩

instance : Mark "#IMPLIED" := ⟨by decide, by decide⟩

instance : Mark "#FIXED" := ⟨by decide, by decide⟩

instance (declarations : Declarations) (depth : Nat) (type : AttributeType) :
    Lasting stop (defaultValue declarations depth type) := by
  unfold defaultValue
  infer_instance

instance : Mark "%" := ⟨by decide, by decide⟩

instance : Mark "NDATA" := ⟨by decide, by decide⟩

instance (declarations : Declarations) : Lasting '>' (entity declarations) := by
  unfold entity
  refine .after fun _ => .after fun parameter => .when fun _ => .after fun name => .after fun _ =>
    .after fun _ => .after fun place => ?_
  cases place with
  | some place => exact .after fun _ => inferInstance
  | none => exact inferInstance

instance : Mark ">" := ⟨by decide, by decide⟩

instance (declarations : Declarations) : Lasting '>' (format declarations) := by
  unfold format
  refine .after fun _ => .after fun name => .after fun _ => .after fun _ => .after fun _ =>
    .ite inferInstance ?_
  refine .after fun _ => .after fun _ => .after fun _ => .after fun _ => .after fun _ => ?_
  exact .ite (.after fun _ => inferInstance) inferInstance

instance (declarations : Declarations) (depth : Nat) (element : String) :
    Lasting stop (attributeRule depth element declarations) := by
  unfold attributeRule
  infer_instance

/-- An attribute is separated from what stands before it. -/
instance (depth : Nat) (element : String) : Advancing (attributeRule depth element) where
  advances {declarations later text record left after} stepped := by
    obtain ⟨separated, rest, _, spaced, stepped⟩ := bind_eq_some_iff.1 stepped
    have suffix := (inferInstance : Lasting '>' someSpaceTaken).suffix spaced
    rcases length_lt_of_taken (by decide) Steady.matching.shortens stepped with fewer | ⟨-, stepped⟩
    · exact Nat.lt_of_lt_of_le fewer suffix.length_le
    obtain ⟨_, _, _, passed, stepped⟩ := bind_eq_some_iff.1 stepped
    have shorter := ((inferInstance : Lasting '>' _).suffix stepped).length_le
    rw [guard_run] at passed
    split at passed
    · next some =>
        cases passed
        rw [some] at spaced
        exact Nat.lt_of_le_of_lt shorter (length_lt_of_someSpaceTaken spaced)
    · cases passed

instance : Mark "<!ENTITY" := ⟨by decide, by decide⟩

instance : Mark "<!ATTLIST" := ⟨by decide, by decide⟩

instance : Mark "<!ELEMENT" := ⟨by decide, by decide⟩

instance : Mark "<!NOTATION" := ⟨by decide, by decide⟩

instance : Mark "<!--" := ⟨by decide, by decide⟩

instance : Mark "<!" := ⟨by decide, by decide⟩

instance (depth : Nat) (declarations : Declarations) : Lasting '>' (declaration depth declarations) := by
  unfold declaration
  refine .after fun _ => .ite inferInstance (.after fun _ => .ite inferInstance (.after fun _ => ?_))
  infer_instance

instance (expand : Declarations → Scan Declarations) (declarations : Declarations) :
    Lasting stop (parameter expand declarations) := by
  unfold parameter
  refine .after fun name => .after fun _ => ?_
  dsimp only
  rcases declarations.parameters.lookup name with _ | _ | text
  · infer_instance
  · infer_instance
  · infer_instance

instance (depth : Nat) (refer : Declarations → Scan Declarations) (declarations : Declarations)
    [Lasting '>' (refer declarations)] : Lasting '>' (nextDeclaration depth refer declarations) := by
  unfold nextDeclaration
  refine .after fun _ => .after fun next => ?_
  split <;> infer_instance

theorem length_lt_of_declaration {depth : Nat} {declarations extended : Declarations}
    {text left : List Char} {record later : Record}
    (taken : declaration depth declarations text record = some ((extended, left), later)) :
    left.length < text.length := by
  have shortens : ∀ {scan : Scan Declarations} [Lasting '>' scan] {text record value left later},
      scan text record = some ((value, left), later) → left.length ≤ text.length := fun taken =>
    ((inferInstance : Lasting '>' _).suffix taken).length_le
  rcases length_lt_of_taken (by decide) shortens taken with fewer | ⟨-, taken⟩
  · exact fewer
  rcases length_lt_of_taken (by decide) shortens taken with fewer | ⟨-, taken⟩
  · exact fewer
  rcases length_lt_of_taken (by decide) shortens taken with fewer | ⟨-, taken⟩
  · exact fewer
  rcases length_lt_of_taken (by decide) shortens taken with fewer | ⟨-, taken⟩
  · exact fewer
  rcases length_lt_of_taken (by decide) shortens taken with fewer | ⟨-, taken⟩
  · exact fewer
  obtain ⟨found, rest, _, opened, taken⟩ := bind_eq_some_iff.1 taken
  cases found with
  | false =>
      have suffix := (inferInstance : Lasting '>' (Scan.taken "<!")).suffix opened
      exact Nat.lt_of_lt_of_le (length_lt_of_exact (by decide) shortens taken) suffix.length_le
  | true =>
      cases taken
      rw [taken_run] at opened
      split at opened
      · next dropped =>
          cases opened
          rw [dropExact?_eq_some_iff.1 dropped, List.length_append]
          exact Nat.lt_add_of_pos_left (by decide)
      · cases opened

instance (depth : Nat) (refer : Declarations → Scan Declarations)
    [∀ declarations, Lasting '>' (refer declarations)] : Advancing (nextDeclaration depth refer) where
  advances {declarations later text record left after} stepped := by
    obtain ⟨_, rest, _, spaced, stepped⟩ := bind_eq_some_iff.1 stepped
    have suffix := (inferInstance : Lasting '>' space).suffix spaced
    obtain ⟨_, _, _, same, stepped⟩ := bind_eq_some_iff.1 stepped
    cases same
    refine Nat.lt_of_lt_of_le ?_ suffix.length_le
    generalize rest.head? = next at stepped
    revert stepped
    split <;> intro stepped
    · cases stepped
    · cases stepped
    · exact length_lt_of_exact (by decide) (fun taken =>
        ((inferInstance : Lasting '>' _).suffix taken).length_le) stepped
    · rw [map_eq_bind] at stepped
      obtain ⟨_, _, _, stepped, same⟩ := bind_eq_some_iff.1 stepped
      cases same
      exact length_lt_of_declaration stepped

instance (depth : Nat) (declarations : Declarations) :
    Lasting '>' (declarationsWithin depth declarations) := by
  induction depth generalizing declarations with
  | zero => exact inferInstanceAs (Lasting '>' (repeating (nextDeclaration 0 fun _ => failure) declarations))
  | succ depth ih =>
      unfold declarationsWithin
      infer_instance

instance (declarations : Declarations) : Closing '>' (subset declarations) := by
  unfold subset
  infer_instance

instance : Mark "[" := ⟨by decide, by decide⟩

/-- Takes a document type after its opening mark, up to the mark that tells how it goes on. Tells whether a place
is given where more declarations are kept. -/
def front : Scan Bool := do
  Scan.someSpace
  discard Scan.name
  Scan.space
  let place ← externalPlace?
  Scan.space
  return place.isSome

theorem head_eq (declarations : Declarations) :
    head declarations = front >>= fun incomplete => do
      if ← Scan.at? "[" then return ({ declarations with incomplete }, true)
      else
        Scan.exact ">"
        return ({ declarations with incomplete }, false) := by
  simp only [head, front, bind_assoc, pure_bind]

instance : Lasting stop front := by
  unfold front
  infer_instance

instance (declarations : Declarations) : Lasting stop (head declarations) := by
  rw [head_eq]
  infer_instance

/-- A document type is taken up to a mark of its own, or stands in front of an opening bracket. -/
theorem head_append {declarations : Declarations} {declared : Declarations × Bool} {text left : List Char}
    {record later : Record} (taken : head declarations text record = some ((declared, left), later))
    (more : List Char) :
    head declarations (text ++ more) record = some ((declared, left ++ more), later) := by
  have whole := taken
  rw [head_eq] at taken
  obtain ⟨incomplete, rest, between, front, taken⟩ := bind_eq_some_iff.1 taken
  obtain ⟨_, _, _, same, taken⟩ := bind_eq_some_iff.1 taken
  cases same
  split at taken
  · next bracketed =>
      cases taken
      obtain ⟨_, dropped⟩ := Option.isSome_iff_exists.1 bracketed
      have kept : '[' ∈ left := by
        rw [dropExact?_eq_some_iff.1 dropped]
        exact List.mem_append_left _ (by decide)
      exact ((inferInstance : Lasting '[' (head declarations)).lasts more kept).2 whole
  · next unbracketed =>
      obtain ⟨_, _, _, closed, given⟩ := bind_eq_some_iff.1 taken
      cases given
      have kept : '>' ∈ rest := by
        rw [exact_eq_some closed]
        exact List.mem_append_left _ (by decide)
      have longer := isSome_dropExact?_append "[" kept more
      rw [head_eq, bind_run (((inferInstance : Lasting '>' Doctype.front).lasts more kept).2 front)]
      change (if (dropExact? "[".toList (rest ++ more)).isSome = true then _ else _ :
        Scan (Declarations × Bool)) (rest ++ more) between = _
      rw [longer, if_neg unbracketed, bind_run (exact_append.2 closed)]
      rfl

end Doctype

/-! ## Content -/

instance : Mark "\r\n" := ⟨by decide, by decide⟩

instance : Lasting stop qualifiedName := by
  unfold qualifiedName
  refine .after fun characters => ?_
  cases QualifiedName.split? characters with
  | some name => exact inferInstanceAs (Lasting stop (pure name))
  | none => infer_instance

namespace StartTag

instance : Mark "/>" := ⟨by decide, by decide⟩

/-- Takes an attribute after what separates it from what stands before it. -/
def separatedAttribute (declarations : Declarations) (depth : Nat) (element : QualifiedName)
    (done : List Attribute × Scope) : Scan (Option (List Attribute × Scope)) := do
  let name ← qualifiedName
  Scan.space
  Scan.exact "="
  Scan.space
  let literal ← Scan.quoted
  let form := if name.declared?.isSome then ValueForm.resolved else .kept
  let value ← declarations.attributeValue depth form literal
  let type := match declarations.rule? element.written name.written with
    | some rule => rule.type
    | none => AttributeType.cdata
  let value := type.normalize value
  match name.declared? with
  | some qualifier =>
      return some (done.1, ← Scope.declare done.2 qualifier (String.ofList value))
  | none =>
      if name.isXml "space" && !spaceValues.contains (String.ofList value) then Reader.warn
      return some ({ name, value } :: done.1, done.2)

theorem nextAttribute_eq (declarations : Declarations) (depth : Nat) (element : QualifiedName)
    (done : List Attribute × Scope) :
    nextAttribute declarations depth element done = (do
      let separated ← Scan.someSpaceTaken
      if (← Scan.at? ">") || (← Scan.at? "/>") then return none
      guard separated
      separatedAttribute declarations depth element done) := rfl

instance (declarations : Declarations) (depth : Nat) (element : QualifiedName)
    (done : List Attribute × Scope) :
    Lasting stop (separatedAttribute declarations depth element done) := by
  unfold separatedAttribute
  refine .after fun name => .after fun _ => .after fun _ => .after fun _ => .after fun _ =>
    .after fun _ => ?_
  dsimp only
  cases name.declared? with
  | some qualifier => infer_instance
  | none => infer_instance

instance (declarations : Declarations) (depth : Nat) (element : QualifiedName)
    (done : List Attribute × Scope) :
    Lasting stop (nextAttribute declarations depth element done) := by
  rw [nextAttribute_eq]
  infer_instance

/-- An attribute is separated from what stands before it. -/
instance (declarations : Declarations) (depth : Nat) (element : QualifiedName) :
    Advancing (nextAttribute declarations depth element) where
  advances {done later text record left after} stepped := by
    rw [nextAttribute_eq] at stepped
    obtain ⟨separated, rest, _, spaced, stepped⟩ := bind_eq_some_iff.1 stepped
    obtain ⟨_, _, _, same, stepped⟩ := bind_eq_some_iff.1 stepped
    cases same
    obtain ⟨_, _, _, same, stepped⟩ := bind_eq_some_iff.1 stepped
    cases same
    split at stepped
    · cases stepped
    obtain ⟨_, _, _, passed, stepped⟩ := bind_eq_some_iff.1 stepped
    have shorter := ((inferInstance : Lasting '>' _).suffix stepped).length_le
    rw [guard_run] at passed
    split at passed
    · next some =>
        cases passed
        rw [some] at spaced
        exact Nat.lt_of_le_of_lt shorter (length_lt_of_someSpaceTaken spaced)
    · cases passed

instance : Mark "/" := ⟨by decide, by decide⟩

instance (declarations : Declarations) (depth : Nat) : Closing '>' (scan declarations depth) := by
  unfold scan
  infer_instance

end StartTag

namespace Content

instance (setting : Setting) (progress : Progress) : Closing '>' (startTag setting progress) := by
  unfold startTag
  infer_instance

instance (element : Element) (outer : List Element) (progress : Progress) :
    Closing '>' (endTag element outer progress) := by
  unfold endTag
  infer_instance

instance (progress : Progress) : Closing '>' (literalSection progress) := by
  unfold literalSection
  infer_instance

/-- What is told of a reference does not hang on the text behind it. -/
theorem exists_reference_eq (expansion : Expansion) (setting : Setting) (progress : Progress) :
    ∃ onward : List Char → Scan Progress, (∀ body, Idle (onward body)) ∧
      reference expansion setting progress = upTo ";" >>= onward := by
  refine ⟨_, fun body => .after fun reference => ?_, rfl⟩
  cases reference with
  | code character => exact inferInstanceAs (Idle (pure _))
  | predefined name character => exact inferInstanceAs (Idle (pure _))
  | entity name =>
      dsimp only
      rcases setting.declarations.entities.lookup name with _ | replacement | _ | _
      · infer_instance
      · cases setting.mode <;> infer_instance
      · infer_instance
      · infer_instance

instance (expansion : Expansion) (setting : Setting) (progress : Progress) :
    Closing ';' (reference expansion setting progress) := by
  obtain ⟨onward, idles, same⟩ := exists_reference_eq expansion setting progress
  rw [same]
  exact .before idles

end Content

end WordStream.Markup

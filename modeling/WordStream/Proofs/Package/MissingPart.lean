import WordStream.Proofs.Package.Listing

/-!
# Parts that are missing

A part that a package does not hold is reported together with the body parts that there are. To tell them,
the relationships of the package are read, so that a package whose relationships cannot be read fails
for that reason instead. Either way it fails before a sink is told anything.
-/

set_option autoImplicit false

namespace WordStream.Package

variable {package : Package} {part : String}

/-! ## Before a part is told -/

section Unopened

variable {cause : Failure}

theorem translatePart_of_unopened (unopened : openPart package part = .error cause)
    (settings : Settings) (policy : Policy) :
    translatePart settings policy package part = .error cause := by
  rw [translatePart, partCalls, unopened]
  rfl

/-- A sink is told nothing of a part that is not open. -/
theorem renderPart_of_unopened {Store : Type} (unopened : openPart package part = .error cause)
    (settings : Settings) (sink : Sink Store) (store : Store) :
    renderPart settings sink store package part = ({ store }, some cause) := by
  rw [renderPart, unopened]

end Unopened

/-! ## Reading what is not there -/

theorem open?_eq_none (absent : part ∉ package.names) : package.open? part = none := by
  rw [← Option.not_isSome_iff_eq_none, Archive.isSome_open?]
  exact absent

theorem readTargets_of_absent (unrelated : relationshipsName part ∉ package.names) :
    readTargets package part = .ok [] := by
  have missing : partData? package (relationshipsName part) = .ok none := by
    rw [partData?, read?_eq_none unrelated]
  rw [readTargets, missing]
  rfl

theorem openPart_of_absent (absent : part ∉ package.names)
    (unrelated : relationshipsName part ∉ package.names) :
    openPart package part =
      match bodyParts package with
      | .ok listed => .error (.missingPart part listed)
      | .error cause => .error cause := by
  rw [openPart, readTargets_of_absent unrelated, open?_eq_none absent]
  cases bodyParts package <;> rfl

theorem parser_of_ofBytes {libraries : Libraries} {bytes : ByteArray}
    (opened : ofBytes libraries bytes = .ok package) : package.parser = libraries.parser := by
  rw [ofBytes] at opened
  cases read : Archive.ofBytes libraries.unpackers bytes with
  | error fault =>
      rw [read] at opened
      cases opened
  | ok archive =>
      rw [read] at opened
      cases opened
      rfl

/-! ## Relationships that cannot be read -/

/-- Why the relationships of a package cannot be read: the member is faulty, or what it holds is
malformed. -/
inductive BadRelationships (package : Package) : Failure → Prop where
  | faulty {fault : Archive.Fault}
      (met : package.read? packageRelationships = some (.error fault)) :
      BadRelationships package (.archive fault)
  | malformed {data : ByteArray} (found : package.read? packageRelationships = some (.ok data))
      (unread : relationshipsOf? package.parser data = none) :
      BadRelationships package (.malformedPart packageRelationships)

theorem readable_or_bad (package : Package) :
    HasReadableRelationships package ∨ ∃ cause, BadRelationships package cause := by
  cases found : package.read? packageRelationships with
  | none => exact .inl (.inl (by rw [partData?, found]))
  | some result =>
      cases result with
      | error fault => exact .inr ⟨_, .faulty found⟩
      | ok data =>
          cases read : relationshipsOf? package.parser data with
          | none => exact .inr ⟨_, .malformed found read⟩
          | some relationships =>
              have present : partData? package packageRelationships = .ok (some data) := by
                rw [partData?, found]
                rfl
              exact .inl (.inr ⟨data, relationships, present, read⟩)

theorem BadRelationships.bodyParts {cause : Failure} (bad : BadRelationships package cause) :
    bodyParts package = .error cause := by
  cases bad with
  | faulty met =>
      rw [Package.bodyParts, mainDocument, partData?, met]
      rfl
  | @malformed data found unread =>
      have refused : relationshipsFrom package.parser packageRelationships data =
          .error (.malformedPart packageRelationships) := by
        rw [relationshipsFrom, unread]
      rw [Package.bodyParts, mainDocument, partData?, found]
      simp only [Except.map, Except.mapError, bind, Except.bind, refused]

/-- A failure for bad relationships does not name a missing part. -/
theorem BadRelationships.ne_missingPart {cause : Failure} (bad : BadRelationships package cause)
    (listed : List String) : cause ≠ .missingPart part listed := by
  rintro rfl
  cases bad

/-! ## What is reported -/

/-- A part that a package does not hold, and for which it holds no relationships either, cannot be translated,
and no sink is told anything of it. It is reported as missing, with the body parts of the package, if and only
if the relationships of the package can be read or there are none; else the reason why they cannot be
read is reported. -/
theorem translate_of_missing (absent : part ∉ package.names)
    (unrelated : relationshipsName part ∉ package.names) :
    ∃ cause : Failure,
      openPart package part = .error cause ∧
        (∀ settings policy, translate settings policy package (some part) = .error cause) ∧
        (∀ (Store : Type) settings (sink : Sink Store) store,
          renderPart settings sink store package part = ({ store }, some cause)) ∧
        ((∃ listed, cause = .missingPart part listed ∧ bodyParts package = .ok listed) ↔
          HasReadableRelationships package) ∧
        (BadRelationships package cause ↔ ¬HasReadableRelationships package) := by
  have opening := openPart_of_absent absent unrelated
  rcases readable_or_bad package with readable | ⟨cause, bad⟩
  · obtain ⟨main, found⟩ := exists_mainDocument readable
    obtain ⟨listed, listing⟩ : ∃ listed, bodyParts package = .ok listed := by
      rw [bodyParts, found]
      exact ⟨_, rfl⟩
    rw [listing] at opening
    refine ⟨.missingPart part listed, opening, translatePart_of_unopened opening,
      fun Store => renderPart_of_unopened opening, ?_, ?_⟩
    · exact iff_of_true ⟨listed, rfl, listing⟩ readable
    · exact iff_of_false (fun bad => bad.ne_missingPart listed rfl) (not_not_intro readable)
  · have unreadable : ¬HasReadableRelationships package := by
      intro readable
      obtain ⟨main, found⟩ := exists_mainDocument readable
      have failed := bad.bodyParts
      rw [bodyParts, found] at failed
      cases failed
    rw [bad.bodyParts] at opening
    refine ⟨cause, opening, translatePart_of_unopened opening,
      fun Store => renderPart_of_unopened opening, ?_, iff_of_true bad unreadable⟩
    refine iff_of_false ?_ unreadable
    rintro ⟨listed, missing, -⟩
    exact bad.ne_missingPart listed missing

theorem translate_absentHeader :
    ∃ package, ofBytes .standard scatteredPackage = .ok package ∧
      "word/header9.xml" ∉ package.names ∧
      relationshipsName "word/header9.xml" ∉ package.names ∧
      HasReadableRelationships package ∧
      (∀ settings policy,
        translate settings policy package (some "word/header9.xml") =
          .error (.missingPart "word/header9.xml"
            ["word/document.xml", "word/header10.xml", "word/header2.xml", "word/footer1.xml"])) ∧
      ∀ (Store : Type) settings (sink : Sink Store) store,
        (renderPart settings sink store package "word/header9.xml").1 = { store } := by
  obtain ⟨package, opened, names⟩ := ofBytes_scatteredPackage
  have absent : "word/header9.xml" ∉ package.names := by
    rw [names]
    decide
  have unrelated : relationshipsName "word/header9.xml" ∉ package.names := by
    rw [names]
    decide +kernel
  obtain ⟨cause, -, translated, rendered, missing, -⟩ := translate_of_missing absent unrelated
  have unread := partData?_scattered names
  obtain ⟨listed, rfl, listing⟩ := missing.2 (.inl unread)
  obtain rfl := Except.ok.inj (listing.symm.trans (bodyParts_of_scattered names))
  exact ⟨package, opened, absent, unrelated, .inl unread, translated,
    fun Store settings sink store => by rw [rendered]⟩

/-! ## A package whose relationships are not closed -/

def openRelationships : String :=
  "<Relationships>                                     "

/-- These relationships as the only member. -/
def openMembers : String :=
  "PK\x03\x04\x14\x00\x00\x00\x00\x00\x00\x00!\x00[Xse4\x00\x00\x004\x00\x00\x00" ++
    "\x0b\x00\x00\x00_rels/.rels" ++ openRelationships

def openDirectory : String :=
  "PK\x01\x02\x14\x00\x14\x00\x00\x00\x00\x00\x00\x00!\x00[Xse4\x00\x00\x004\x00\x00\x00" ++
    "\x0b" ++ zeros 17 ++ "_rels/.rels"

def openPackage : ByteArray :=
  openMembers.toUTF8 ++ openDirectory.toUTF8 ++
    "PK\x05\x06\x00\x00\x00\x00\x01\x00\x01\x009\x00\x00\x00]\x00\x00\x00\x00\x00".toUTF8

/-- A part that is missing is not reported as such where the relationships of the package are malformed. -/
theorem translate_openPackage :
    ∃ package, ofBytes .standard openPackage = .ok package ∧ "word/header9.xml" ∉ package.names ∧
      relationshipsName "word/header9.xml" ∉ package.names ∧
      ∀ settings policy,
        translate settings policy package (some "word/header9.xml") =
          .error (.malformedPart "_rels/.rels") := by
  have told : ((ofBytes .standard openPackage).toOption.map fun package =>
      (package.names, (package.read? packageRelationships).bind Except.toOption)) =
      some ([packageRelationships], some openRelationships.toUTF8) := by
    decide +kernel
  cases opened : ofBytes .standard openPackage with
  | error cause =>
      rw [opened] at told
      cases told
  | ok package =>
      rw [opened] at told
      obtain ⟨names, data⟩ := Prod.mk.inj (Option.some.inj told)
      obtain ⟨result, found, taken⟩ := Option.bind_eq_some_iff.1 data
      obtain rfl := eq_ok_of_toOption taken
      have parser : package.parser = Libraries.standard.parser := parser_of_ofBytes opened
      have unread : relationshipsOf? package.parser openRelationships.toUTF8 = none := by
        rw [parser]
        decide +kernel
      have absent : "word/header9.xml" ∉ package.names := by
        rw [names]
        decide
      have unrelated : relationshipsName "word/header9.xml" ∉ package.names := by
        rw [names]
        decide +kernel
      have opening := openPart_of_absent absent unrelated
      rw [(BadRelationships.malformed found unread).bodyParts] at opening
      exact ⟨package, rfl, absent, unrelated, translatePart_of_unopened opening⟩

end WordStream.Package

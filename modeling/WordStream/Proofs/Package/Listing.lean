import Mathlib.Data.List.Nodup
import WordStream.Package.Parts
import WordStream.Proofs.Archive.Stored
import WordStream.Proofs.Markup.Scan

/-!
# Body parts as they are listed

The body parts of a package are its main document, if it is there, and then the headers, footers,
footnotes and endnotes, the parts of each kind ascending. The kinds are told apart by how their names begin,
so that no part is listed twice but a main document that is named as a header, a footer or notes are.
-/

set_option autoImplicit false

namespace WordStream.Package

variable {package : Package} {kind : Secondary} {name : String}

/-! ## Names of a kind -/

namespace Secondary

/-- What a name of a part may end with. -/
def endings : List (List Char) := [".xml".toList, ".xml\n".toList]

/-- Whether a name begins as those of a kind do, goes on with digits if a number may come, and ends. -/
def Matches (kind : Secondary) (name : String) : Prop :=
  ∃ digits ending : List Char,
    name.toList = kind.stem.toList ++ (digits ++ ending) ∧
      (∀ digit ∈ digits, Text.isDecimalDigit digit = true) ∧
        (digits = [] ∨ kind.numbered = true) ∧ ending ∈ endings

theorem dropWhile_ending {ending : List Char} (ends : ending ∈ endings) :
    ending.dropWhile Text.isDecimalDigit = ending := by
  revert ending
  decide +kernel

theorem names_iff : kind.names name = true ↔ kind.Matches name := by
  have mem_endings : ∀ ending : List Char,
      (decide (ending = ".xml".toList) || decide (ending = ".xml\n".toList)) = true ↔
        ending ∈ endings := by
    intro ending
    simp only [endings, Bool.or_eq_true, decide_eq_true_eq, List.mem_cons, List.not_mem_nil, or_false]
  unfold names Matches
  constructor
  · intro named
    split at named
    · cases named
    · next rest dropped =>
        rw [Markup.Scan.dropExact?_eq_some_iff] at dropped
        have ends := (mem_endings _).1 named
        cases numbered : kind.numbered with
        | true =>
            rw [numbered, if_pos rfl] at ends
            refine ⟨rest.takeWhile Text.isDecimalDigit, _, ?_, ?_, .inr rfl, ends⟩
            · rw [List.takeWhile_append_dropWhile, dropped]
            · exact List.all_eq_true.1 List.all_takeWhile
        | false =>
            rw [numbered, if_neg Bool.false_ne_true] at ends
            exact ⟨[], rest, dropped, List.forall_mem_nil _, .inl rfl, ends⟩
  · rintro ⟨digits, ending, characters, digital, numbered, ends⟩
    rw [Markup.Scan.dropExact?_eq_some_iff.2 characters]
    have left : (if kind.numbered then (digits ++ ending).dropWhile Text.isDecimalDigit
        else digits ++ ending) = ending := by
      rw [List.dropWhile_append_of_pos digital, dropWhile_ending ends]
      rcases numbered with rfl | numbered
      · simp
      · rw [if_pos numbered]
    simp only [left]
    exact (mem_endings ending).2 ends

/-- No name is that of two kinds. -/
theorem Matches.eq {other : Secondary} (first : kind.Matches name) (second : other.Matches name) :
    kind = other := by
  obtain ⟨_, _, firstCharacters, -⟩ := first
  obtain ⟨_, _, secondCharacters, -⟩ := second
  have one : kind.stem.toList <+: name.toList := firstCharacters ▸ List.prefix_append _ _
  have two : other.stem.toList <+: name.toList := secondCharacters ▸ List.prefix_append _ _
  rcases List.prefix_or_prefix_of_prefix one two with within | within
  · revert within
    cases kind <;> cases other <;> decide
  · revert within
    cases kind <;> cases other <;> decide

end Secondary

/-! ## Parts of a kind -/

theorem pairwise_insertName {names : List String} (ascending : names.Pairwise (· < ·)) :
    (insertName name names).Pairwise (· < ·) := by
  induction names with
  | nil => exact List.pairwise_singleton _ _
  | cons first others ih =>
      obtain ⟨least, rest⟩ := List.pairwise_cons.1 ascending
      unfold insertName
      split
      · next before =>
          refine List.pairwise_cons.2 ⟨fun other member => ?_, ascending⟩
          rcases List.mem_cons.1 member with rfl | later
          · exact before
          · exact String.lt_trans before (least other later)
      · next notBefore =>
          split
          · exact ascending
          · next different =>
              refine List.pairwise_cons.2 ⟨fun other member => ?_, ih rest⟩
              rcases mem_insertName.1 member with rfl | later
              · refine Decidable.byContradiction fun notAfter => different ?_
                exact String.le_antisymm (String.not_lt.1 notAfter) (String.not_lt.1 notBefore)
              · exact least other later

theorem pairwise_secondaryParts : (secondaryParts package kind).Pairwise (· < ·) := by
  unfold secondaryParts
  induction package.names.filter kind.names with
  | nil => exact .nil
  | cons first others ih => exact pairwise_insertName ih

theorem nodup_secondaryParts : (Secondary.all.flatMap (secondaryParts package)).Nodup := by
  rw [List.nodup_flatMap]
  constructor
  · intro kind _
    refine List.nodup_iff_pairwise_ne.2 (pairwise_secondaryParts.imp fun {first second} before => ?_)
    rintro rfl
    exact String.lt_irrefl first before
  · have distinct : Secondary.all.Nodup := by decide
    refine distinct.imp fun {first second} different name inFirst inSecond => different ?_
    have one := Secondary.names_iff.1 (mem_secondaryParts.1 inFirst).2
    exact one.eq (Secondary.names_iff.1 (mem_secondaryParts.1 inSecond).2)

theorem Secondary.mem_all (kind : Secondary) : kind ∈ Secondary.all := by
  cases kind <;> decide

theorem mem_flatMap_secondaryParts :
    name ∈ Secondary.all.flatMap (secondaryParts package) ↔
      name ∈ package.names ∧ ∃ kind : Secondary, kind.Matches name := by
  simp only [List.mem_flatMap, mem_secondaryParts, Secondary.names_iff, Secondary.mem_all, true_and,
    exists_and_left]

/-! ## The whole list -/

theorem count_append_of_nodup {front back : List String} (former : front.Nodup) (latter : back.Nodup)
    (name : String) :
    (front ++ back).count name ≤ 2 ∧
      ((front ++ back).count name = 2 ↔ name ∈ front ∧ name ∈ back) := by
  rw [List.count_append, former.count, latter.count]
  constructor
  · split <;> split <;> omega
  · split <;> split <;> simp [*]

theorem read?_eq_none (absent : name ∉ package.names) : package.read? name = none := by
  rw [← Option.not_isSome_iff_eq_none, Archive.isSome_read?]
  exact absent

/-- Whether the package has no relationships of its own, or has some that can be read. -/
def HasReadableRelationships (package : Package) : Prop :=
  partData? package packageRelationships = .ok none ∨
    ∃ data relationships, partData? package packageRelationships = .ok (some data) ∧
      relationshipsOf? package.parser data = some relationships

theorem exists_mainDocument (readable : HasReadableRelationships package) :
    ∃ main, mainDocument package = .ok main := by
  unfold mainDocument
  rcases readable with absent | ⟨data, relationships, present, read⟩
  · exact ⟨defaultDocument, by rw [absent]; rfl⟩
  · have taken : relationshipsFrom package.parser packageRelationships data = .ok relationships := by
      rw [relationshipsFrom, read]
    rw [present]
    simp only [bind, Except.bind, taken]
    split <;> exact ⟨_, rfl⟩

/-- Where its relationships can be read, or there are none, the body parts of a package are listed: the main
document if it is there, then the headers, the footers, the footnotes and the endnotes, each kind ascending
by code points. Listed are all names of the package that are the main document's or match a kind, and no
others. No name is listed more than once but that of a main document that matches a kind as well, which is
listed twice. -/
theorem bodyParts_of_readable (readable : HasReadableRelationships package) :
    ∃ (main : String) (listed : List String) (group : Secondary → List String),
      mainDocument package = .ok main ∧ bodyParts package = .ok listed ∧
        listed = (if main ∈ package.names then [main] else []) ++
          (group .header ++ group .footer ++ group .footnotes ++ group .endnotes) ∧
        (∀ kind, (group kind).Pairwise (· < ·) ∧
          ∀ name, name ∈ group kind ↔ name ∈ package.names ∧ kind.Matches name) ∧
        (∀ name, name ∈ listed ↔
          name ∈ package.names ∧ (name = main ∨ ∃ kind : Secondary, kind.Matches name)) ∧
        ∀ name, listed.count name ≤ 2 ∧
          (listed.count name = 2 ↔
            name = main ∧ name ∈ package.names ∧ ∃ kind : Secondary, kind.Matches name) := by
  obtain ⟨main, found⟩ := exists_mainDocument readable
  let others := Secondary.all.flatMap (secondaryParts package)
  have listing : bodyParts package =
      .ok ((if main ∈ package.names then [main] else []) ++ others) := by
    rw [bodyParts, found]
    simp only [List.contains_eq_mem, decide_eq_true_eq]
    rfl
  have front : ∀ name, name ∈ (if main ∈ package.names then [main] else []) ↔
      name = main ∧ name ∈ package.names := by
    intro name
    split
    · next present => simp +contextual [present]
    · next absent => simp +contextual [absent]
  have once : (if main ∈ package.names then [main] else []).Nodup := by
    split
    · exact List.nodup_singleton main
    · exact List.nodup_nil
  refine ⟨main, _, secondaryParts package, found, listing, ?_, ?_, ?_, ?_⟩
  · simp [others, Secondary.all]
  · intro kind
    refine ⟨pairwise_secondaryParts, fun name => ?_⟩
    rw [mem_secondaryParts, Secondary.names_iff]
  · intro name
    rw [List.mem_append, front, mem_flatMap_secondaryParts]
    tauto
  · intro name
    obtain ⟨bound, twice⟩ := count_append_of_nodup once nodup_secondaryParts name
    refine ⟨bound, twice.trans ?_⟩
    rw [front, mem_flatMap_secondaryParts]
    constructor
    · rintro ⟨⟨same, -⟩, present, matching⟩
      exact ⟨same, present, matching⟩
    · rintro ⟨same, present, matching⟩
      exact ⟨⟨same, present⟩, present, matching⟩

/-! ## A package in disorder -/

theorem ofBytes_of_archive {libraries : Libraries} {bytes : ByteArray} {archive : Archive}
    (opened : Archive.ofBytes libraries.unpackers bytes = .ok archive) :
    ofBytes libraries bytes = .ok { archive with parser := libraries.parser } := by
  rw [ofBytes, opened]
  rfl

def zeros (count : Nat) : String := String.ofList (List.replicate count '\x00')

/-- The text whose bytes are an empty member, with the name given. -/
def emptyMember (name : String) : String :=
  "PK\x03\x04\x14" ++ zeros 7 ++ "!" ++ zeros 13 ++ String.singleton (Char.ofNat name.length) ++
    zeros 3 ++ name

/-- The text whose bytes list an empty member in a directory. The place at which the member begins is told
by two bytes. -/
def emptyListing (name : String) (low high : Nat) : String :=
  "PK\x01\x02\x14\x00\x14" ++ zeros 7 ++ "!" ++ zeros 13 ++
    String.singleton (Char.ofNat name.length) ++ zeros 13 ++
    String.ofList [Char.ofNat low, Char.ofNat high, '\x00', '\x00'] ++ name

def scattered : List String :=
  ["word/footer1.xml", "word/header2.xml", "word/header10.xml", "word/document.xml", "word/header2.xml"]

/-- Members that stand apart, so that the bytes of all places are those of characters. -/
def scatteredMembers : String :=
  emptyMember "word/footer1.xml" ++ emptyMember "word/header2.xml" ++
    emptyMember "word/header10.xml" ++ zeros 117 ++ emptyMember "word/document.xml" ++
    emptyMember "word/header2.xml"

def scatteredDirectory : String :=
  emptyListing "word/footer1.xml" 0x00 0x00 ++ emptyListing "word/header2.xml" 0x2E 0x00 ++
    emptyListing "word/header10.xml" 0x5C 0x00 ++ emptyListing "word/document.xml" 0x00 0x01 ++
    emptyListing "word/header2.xml" 0x2F 0x01

def scatteredPackage : ByteArray :=
  scatteredMembers.toUTF8 ++ scatteredDirectory.toUTF8 ++
    "PK\x05\x06\x00\x00\x00\x00\x05\x00\x05\x008\x01\x00\x00]\x01\x00\x00\x00\x00".toUTF8

theorem ofBytes_scatteredPackage :
    ∃ package, ofBytes .standard scatteredPackage = .ok package ∧ package.names = scattered := by
  have located : Archive.locate scatteredPackage =
      .ok { size := 0x138, start := 0x15D, shift := 0 } :=
    eq_ok_of_toOption (by decide +kernel)
  have listed : (Archive.readEntries scatteredDirectory.toUTF8 0x138 0 7 0 []).toOption.map
      (·.map Archive.Entry.name) = some scattered := by
    decide +kernel
  have sizes : scatteredMembers.toUTF8.size = 0x15D ∧ scatteredDirectory.toUTF8.size = 0x138 := by
    decide +kernel
  obtain ⟨entries, read, names⟩ := Option.map_eq_some_iff.1 listed
  have opened : Archive.ofBytes Libraries.standard.unpackers _ = _ :=
    Archive.ofBytes_of_located located sizes.1.symm sizes.2.symm (eq_ok_of_toOption read)
  exact ⟨_, ofBytes_of_archive opened, names⟩

theorem partData?_scattered {package : Package} (names : package.names = scattered) :
    partData? package packageRelationships = .ok none := by
  rw [partData?, read?_eq_none]
  rw [names]
  decide

theorem bodyParts_of_scattered {package : Package} (names : package.names = scattered) :
    bodyParts package = .ok
      ["word/document.xml", "word/header10.xml", "word/header2.xml", "word/footer1.xml"] := by
  have groups : Secondary.all.flatMap (secondaryParts package) =
      Secondary.all.flatMap fun kind => (scattered.filter kind.names).foldr insertName [] := by
    rw [← names]
    rfl
  have main : mainDocument package = .ok "word/document.xml" := by
    rw [mainDocument, partData?_scattered names]
    rfl
  rw [bodyParts, main, names, groups]
  decide +kernel

theorem bodyParts_scattered :
    ∃ package, ofBytes .standard scatteredPackage = .ok package ∧
      HasReadableRelationships package ∧
      bodyParts package = .ok
        ["word/document.xml", "word/header10.xml", "word/header2.xml", "word/footer1.xml"] ∧
      ∀ name, (∃ listed, bodyParts package = .ok listed ∧ name ∈ listed) ↔
        name ∈ package.names ∧
          (name = "word/document.xml" ∨ ∃ kind : Secondary, kind.Matches name) := by
  obtain ⟨package, opened, names⟩ := ofBytes_scatteredPackage
  have absent := partData?_scattered names
  have readable : HasReadableRelationships package := .inl absent
  obtain ⟨main, listed, group, found, listing, parts, groups, members, -⟩ :=
    bodyParts_of_readable readable
  have same : main = "word/document.xml" := by
    rw [mainDocument, absent] at found
    exact (Except.ok.inj found).symm
  refine ⟨package, opened, readable, bodyParts_of_scattered names, fun name => ?_⟩
  rw [← same, ← members, listing]
  constructor
  · rintro ⟨_, taken, member⟩
    cases taken
    exact member
  · intro member
    exact ⟨listed, rfl, member⟩


/-! ## A main document that is named as a header -/

def headerRelationships : String :=
  "<Relationships xmlns=\"" ++ relationshipsSpace ++ "\"><Relationship Id=\"rId109\" Type=\"" ++
    mainDocumentType ++ "\" Target=\"word/header.xml\"/></Relationships>              "

/-- These relationships as a member, and an empty member that they lead to. -/
def headerMembers : String :=
  "PK\x03\x04\x14\x00\x00\x00\x00\x00\x00\x00!\x00\x12\x1f?_\x00\x01\x00\x00\x00\x01\x00\x00" ++
    "\x0b\x00\x00\x00_rels/.rels" ++ headerRelationships ++ emptyMember "word/header.xml"

def headerDirectory : String :=
  "PK\x01\x02\x14\x00\x14\x00\x00\x00\x00\x00\x00\x00!\x00\x12\x1f?_\x00\x01\x00\x00" ++
    "\x00\x01\x00\x00\x0b" ++ zeros 17 ++ "_rels/.rels" ++ emptyListing "word/header.xml" 0x29 0x01

def headerPackage : ByteArray :=
  headerMembers.toUTF8 ++ headerDirectory.toUTF8 ++
    "PK\x05\x06\x00\x00\x00\x00\x02\x00\x02\x00v\x00\x00\x00V\x01\x00\x00\x00\x00".toUTF8

/-- The entry of the relationships, with their checksum and size. -/
def headerEntry : Archive.Entry :=
  { listedName := packageRelationships, flags := 0, method := 0, checksum := 0x5F3F1F12
    packedSize := 256, size := 256, place := 0 }

def headerArchive : Package where
  unpackers := Libraries.standard.unpackers
  parser := Libraries.standard.parser
  bytes := headerPackage
  entries :=
    [headerEntry,
      { listedName := "word/header.xml", flags := 0, method := 0, checksum := 0, packedSize := 0, size := 0
        place := 297 }]
  start := 342

theorem ofBytes_headerPackage : ofBytes .standard headerPackage = .ok headerArchive := by
  have located : Archive.locate headerPackage = .ok { size := 118, start := 342, shift := 0 } :=
    eq_ok_of_toOption (by decide +kernel)
  have listed : Archive.readEntries headerDirectory.toUTF8 118 0 3 0 [] = .ok headerArchive.entries :=
    eq_ok_of_toOption (by decide +kernel)
  have sizes : headerMembers.toUTF8.size = 342 ∧ headerDirectory.toUTF8.size = 118 := by
    decide +kernel
  exact ofBytes_of_archive
    (Archive.ofBytes_of_located located sizes.1.symm sizes.2.symm listed)

theorem read?_headerRelationships :
    headerArchive.read? packageRelationships = some (.ok headerRelationships.toUTF8) := by
  have size : headerRelationships.toUTF8.size = 256 := by decide +kernel
  have begins : ((Archive.openEntry headerArchive.toArchive headerEntry).toOption.map (·.place)) = some 41 := by
    decide +kernel
  cases opened : Archive.openEntry headerArchive.toArchive headerEntry with
  | error fault =>
      rw [opened] at begins
      cases begins
  | ok member =>
      rw [opened] at begins
      have place : member.place = 41 := Option.some.inj begins
      refine Archive.read?_of_stored (by decide +kernel) opened rfl ?_ ?_ size.symm size.symm ?_ ?_
      · rw [size]
        decide
      · rw [size]
        decide
      · refine ByteArray.ext (Array.toList_inj.1 ?_)
        rw [Bytes.toList_slice, place, size]
        decide +kernel
      · rw [Archive.Checksum.value_add]
        decide +kernel

theorem bodyParts_headerPackage :
    ∃ package, ofBytes .standard headerPackage = .ok package ∧ HasReadableRelationships package ∧
      bodyParts package = .ok ["word/header.xml", "word/header.xml"] := by
  have data : partData? headerArchive packageRelationships = .ok (some headerRelationships.toUTF8) := by
    rw [partData?, read?_headerRelationships]
    rfl
  have leads : (relationshipsOf? headerArchive.parser headerRelationships.toUTF8).map (targetOfType? mainDocumentType) =
      some (some "word/header.xml") := by
    decide +kernel
  obtain ⟨relationships, read, target⟩ := Option.map_eq_some_iff.1 leads
  have taken : relationshipsFrom headerArchive.parser packageRelationships headerRelationships.toUTF8 =
      .ok relationships := by
    rw [relationshipsFrom, read]
  have main : mainDocument headerArchive = .ok "word/header.xml" := by
    rw [mainDocument, data]
    simp only [bind, Except.bind, taken, target]
    rfl
  refine ⟨headerArchive, ofBytes_headerPackage, .inr ⟨_, relationships, data, read⟩, ?_⟩
  rw [bodyParts, main]
  rfl

end WordStream.Package

import Mathlib.Data.List.Induction
import Mathlib.Data.List.Infix
import WordStream.Proofs.Package.MissingPart

/-!
# Files of relationships

The file of relationships of a part is named after the folder and the last segment of the part's name, and
these can be told from its own name again: it is a path whose folder and last segment are joined from them. So
two parts share a file only if their names differ in no more than the slashes that their folders end with, and
the relationships of the package belong to no part with a name.
-/

set_option autoImplicit false

namespace WordStream.Package

variable {path folder front name : List Char} {last : Char} {part other : String}

/-! ## Paths, their folders and their last segments -/

/-- A path with its folder and its last segment. The folder is told without the slashes that it ends with,
unless it is nothing but slashes. -/
inductive IsSplit : List Char → List Char → List Char → Prop where
  | slashes (count : Nat) {name : List Char} (plain : '/' ∉ name) :
      IsSplit (List.replicate count '/' ++ name) (List.replicate count '/') name
  | filled (front : List Char) (count : Nat) {name : List Char} {last : Char} (closed : last ≠ '/')
      (plain : '/' ∉ name) :
      IsSplit (front ++ [last] ++ List.replicate (count + 1) '/' ++ name) (front ++ [last]) name

theorem IsSplit.plain (split : IsSplit path folder name) : '/' ∉ name := by
  cases split with
  | slashes _ plain => exact plain
  | filled _ _ _ plain => exact plain

theorem IsSplit.suffix (split : IsSplit path folder name) : name <:+ path := by
  cases split with
  | slashes => exact List.suffix_append _ _
  | filled => exact List.suffix_append _ _

theorem IsSplit.append_other (split : IsSplit path folder name) {character : Char}
    (other : character ≠ '/') : IsSplit (path ++ [character]) folder (name ++ [character]) := by
  have plain : '/' ∉ name ++ [character] := by
    simp [split.plain, other.symm]
  cases split with
  | slashes count =>
      rw [List.append_assoc]
      exact .slashes count plain
  | filled front count closed =>
      rw [List.append_assoc]
      exact .filled front count closed plain

theorem IsSplit.append_slash (split : IsSplit path folder name) :
    ∃ folder, IsSplit (path ++ ['/']) folder [] := by
  have plain : '/' ∉ ([] : List Char) := List.not_mem_nil
  -- The slash is one more behind the folder, or it makes a folder of what was the last segment.
  rcases List.eq_nil_or_concat' name with rfl | ⟨before, last, rfl⟩
  · cases split with
    | slashes count =>
        have longer := IsSplit.slashes (count + 1) plain
        rw [List.append_nil, List.replicate_succ'] at longer
        rw [List.append_nil]
        exact ⟨_, longer⟩
    | filled front count closed =>
        have longer := IsSplit.filled front (count + 1) closed plain
        rw [List.append_nil, List.replicate_succ', ← List.append_assoc] at longer
        rw [List.append_nil]
        exact ⟨_, longer⟩
  · have closed : last ≠ '/' := by
      rintro rfl
      exact split.plain (by simp)
    obtain ⟨front, rfl⟩ := split.suffix
    have folder := IsSplit.filled (front ++ before) 0 closed plain
    rw [List.append_nil] at folder
    rw [← List.append_assoc front before]
    exact ⟨_, folder⟩

/-- A path without a folder is its own last segment. -/
theorem IsSplit.eq_of_bare (split : IsSplit path folder name) (bare : folder = []) : path = name := by
  cases split with
  | slashes count => rw [bare, List.nil_append]
  | filled => exact absurd bare (List.append_ne_nil_of_right_ne_nil _ (List.cons_ne_nil _ _))

theorem exists_isSplit (path : List Char) : ∃ folder name, IsSplit path folder name := by
  induction path using List.reverseRecOn with
  | nil => exact ⟨[], [], .slashes 0 List.not_mem_nil⟩
  | append_singleton path character ih =>
      obtain ⟨folder, name, split⟩ := ih
      by_cases slash : character = '/'
      · subst slash
        obtain ⟨folder, longer⟩ := split.append_slash
        exact ⟨folder, [], longer⟩
      · exact ⟨folder, name ++ [character], split.append_other slash⟩

/-! ## Splitting paths -/

theorem splitPath_append (ends : ∀ character ∈ front.getLast?, character = '/')
    (plain : '/' ∉ name) :
    splitPath (front ++ name) =
      (if front.all (· == '/') then front else dropLastSlashes front, name) := by
  have kept : ∀ character ∈ name.reverse, (character != '/') = true := by
    intro character member
    refine bne_iff_ne.2 fun same => plain ?_
    exact same ▸ List.mem_reverse.1 member
  have stopped : front.reverse.takeWhile (· != '/') = [] := by
    cases turned : front.reverse with
    | nil => rfl
    | cons character others =>
        have slash : character = '/' := ends character (by simp [← List.head?_reverse, turned])
        simp [slash]
  have segment : ((front ++ name).reverse.takeWhile (· != '/')).reverse = name := by
    rw [List.reverse_append, List.takeWhile_append_of_pos kept, stopped, List.append_nil,
      List.reverse_reverse]
  have folder : (front ++ name).take ((front ++ name).length - name.length) = front := by
    rw [List.length_append, Nat.add_sub_cancel, List.take_left]
  simp only [splitPath, segment, folder]

theorem dropLastSlashes_append (count : Nat) (closed : last ≠ '/') :
    dropLastSlashes (front ++ [last] ++ List.replicate count '/') = front ++ [last] := by
  have slashes : ∀ character ∈ List.replicate count '/', (character == '/') = true := by
    intro character member
    rw [List.eq_of_mem_replicate member, beq_self_eq_true]
  rw [dropLastSlashes, List.reverse_append, List.reverse_replicate,
    List.dropWhile_append_of_pos slashes, List.reverse_append, List.reverse_singleton,
    List.singleton_append, List.dropWhile_cons_of_neg (by simp [closed])]
  simp

theorem IsSplit.splitPath_eq (split : IsSplit path folder name) : splitPath path = (folder, name) := by
  cases split with
  | slashes count plain =>
      have slashes : ∀ character ∈ List.replicate count '/', character = '/' :=
        fun character member => List.eq_of_mem_replicate member
      rw [splitPath_append (fun character member => slashes character (List.mem_of_getLast? member)) plain,
        if_pos]
      simp
  | @filled front count name last closed plain =>
      have ends : (front ++ [last] ++ List.replicate (count + 1) '/').getLast? = some '/' := by
        rw [List.replicate_succ', ← List.append_assoc, List.getLast?_concat]
      have slash : ∀ character ∈ (front ++ [last] ++ List.replicate (count + 1) '/').getLast?,
          character = '/' := by
        rw [ends]
        exact fun character member => (Option.some.inj member).symm
      rw [splitPath_append slash plain, if_neg, dropLastSlashes_append (count + 1) closed]
      simp [closed]

theorem IsSplit.unique (split : IsSplit path folder name) {otherFolder otherName : List Char}
    (second : IsSplit path otherFolder otherName) : folder = otherFolder ∧ name = otherName :=
  Prod.mk.inj (split.splitPath_eq.symm.trans second.splitPath_eq)

/-! ## Joining paths -/

theorem joinPath_slashes (count : Nat) (plain : '/' ∉ name) :
    joinPath (List.replicate count '/') name = List.replicate count '/' ++ name := by
  have relative : name.head? ≠ some '/' := fun slash => plain (List.mem_of_head? slash)
  have ends : (List.replicate count '/').getLast?.all (· == '/') = true := by
    rw [List.getLast?_replicate]
    split <;> rfl
  rw [joinPath, if_neg relative, if_pos ends]

theorem joinPath_filled (closed : last ≠ '/') (plain : '/' ∉ name) :
    joinPath (front ++ [last]) name = front ++ [last] ++ ['/'] ++ name := by
  have relative : name.head? ≠ some '/' := fun slash => plain (List.mem_of_head? slash)
  have goesOn : ¬(front ++ [last]).getLast?.all (· == '/') = true := by
    simpa using closed
  rw [joinPath, if_neg relative, if_neg goesOn, List.append_assoc _ ['/'], List.singleton_append]

/-- Whatever it is joined to, a path keeps its end. -/
theorem exists_joinPath_eq (folder front : List Char) (last : Char) :
    ∃ before, joinPath folder (front ++ [last]) = before ++ [last] := by
  unfold joinPath
  split
  · exact ⟨front, rfl⟩
  · split
    · exact ⟨folder ++ front, (List.append_assoc _ _ _).symm⟩
    · exact ⟨folder ++ '/' :: front, by simp⟩

/-- A segment that is joined to the folder of a path is in that folder. -/
theorem IsSplit.join {segment : List Char} (split : IsSplit path folder name)
    (plain : '/' ∉ segment) : IsSplit (joinPath folder segment) folder segment := by
  cases split with
  | slashes count =>
      rw [joinPath_slashes count plain]
      exact .slashes count plain
  | filled front count closed =>
      rw [joinPath_filled closed plain]
      exact .filled front 0 closed plain

/-- A path without double slashes is what its folder and its last segment are joined to. -/
theorem IsSplit.joinPath_eq (split : IsSplit path folder name) (single : ¬['/', '/'] <:+: path) :
    joinPath folder name = path := by
  cases split with
  | slashes count plain => exact joinPath_slashes count plain
  | @filled front count name last closed plain =>
      cases count with
      | zero => simpa using joinPath_filled closed plain
      | succ count =>
          refine absurd ⟨front ++ [last], List.replicate count '/' ++ name, ?_⟩ single
          simp [List.replicate_succ]

/-! ## Names of files -/

theorem toList_relationshipsName (split : IsSplit part.toList folder name) :
    (relationshipsName part).toList =
      joinPath (joinPath folder "_rels".toList) (name ++ ".rels".toList) := by
  rw [relationshipsName, split.splitPath_eq, String.toList_ofList]

/-- The file of a part is in a folder within the part's, and named after its last segment. -/
theorem isSplit_relationshipsName (split : IsSplit part.toList folder name) :
    IsSplit (relationshipsName part).toList (joinPath folder "_rels".toList)
      (name ++ ".rels".toList) := by
  have plain : '/' ∉ name ++ ".rels".toList := by
    rw [List.mem_append, not_or]
    exact ⟨split.plain, by decide⟩
  have ending : "_rels".toList = "_rel".toList ++ ['s'] := by decide
  obtain ⟨before, ends⟩ := exists_joinPath_eq folder "_rel".toList 's'
  rw [toList_relationshipsName split, ending, ends]
  have closed : 's' ≠ '/' := by decide
  have within := IsSplit.filled before 0 closed List.not_mem_nil
  exact within.join plain

example : relationshipsName "word/document.xml" = "word/_rels/document.xml.rels" := by decide +kernel

theorem relationshipsName_eq_iff :
    relationshipsName part = relationshipsName other ↔
      ∃ folder name, IsSplit part.toList folder name ∧ IsSplit other.toList folder name := by
  constructor
  · intro same
    -- Splitting the file's name gives the segment back, splitting its folder gives the part's.
    obtain ⟨folder, name, split⟩ := exists_isSplit part.toList
    obtain ⟨otherFolder, otherName, otherSplit⟩ := exists_isSplit other.toList
    have file := isSplit_relationshipsName split
    rw [same] at file
    obtain ⟨sameFolder, sameName⟩ := file.unique (isSplit_relationshipsName otherSplit)
    have segment : '/' ∉ "_rels".toList := by decide
    have within := split.join segment
    rw [sameFolder] at within
    obtain ⟨rfl, -⟩ := within.unique (otherSplit.join segment)
    obtain rfl := List.append_cancel_right sameName
    exact ⟨folder, name, split, otherSplit⟩
  · rintro ⟨folder, name, split, otherSplit⟩
    apply String.toList_inj.1
    rw [toList_relationshipsName split, toList_relationshipsName otherSplit]

theorem relationshipsName_inj (single : ¬['/', '/'] <:+: part.toList)
    (otherSingle : ¬['/', '/'] <:+: other.toList) :
    relationshipsName part = relationshipsName other ↔ part = other := by
  constructor
  · intro same
    obtain ⟨folder, name, split, otherSplit⟩ := relationshipsName_eq_iff.1 same
    apply String.toList_inj.1
    rw [← split.joinPath_eq single, otherSplit.joinPath_eq otherSingle]
  · rintro rfl
    rfl

theorem relationshipsName_eq_packageRelationships_iff :
    relationshipsName part = packageRelationships ↔ part = "" := by
  have unnamed : relationshipsName "" = packageRelationships := by decide +kernel
  constructor
  · intro same
    obtain ⟨folder, name, split, empty⟩ := relationshipsName_eq_iff.1 (same.trans unnamed.symm)
    obtain ⟨rfl, rfl⟩ := empty.unique (.slashes 0 List.not_mem_nil)
    exact String.toList_eq_nil_iff.1 (split.eq_of_bare rfl)
  · rintro rfl
    exact unnamed

/-! ## Targets of a part -/

variable {package another : Package}

theorem readTargets_congr (parser : package.parser = another.parser)
    (same : package.read? (relationshipsName part) = another.read? (relationshipsName part)) :
    readTargets package part = readTargets another part := by
  have data : partData? package (relationshipsName part) =
      partData? another (relationshipsName part) := by
    rw [partData?, partData?, same]
  rw [readTargets, readTargets, data, parser]

/-- Two parts share a file of relationships if and only if their names have one last segment and one folder,
the slashes that folders end with apart. So names without double slashes share none, the file of the package
is that of the empty name only, and what it holds makes no difference to the targets of a part with a name. -/
theorem relationshipsName_separates :
    (∀ part other : String, relationshipsName part = relationshipsName other ↔
        ∃ folder name, IsSplit part.toList folder name ∧ IsSplit other.toList folder name) ∧
      (∀ part other : String, ¬['/', '/'] <:+: part.toList → ¬['/', '/'] <:+: other.toList →
        (relationshipsName part = relationshipsName other ↔ part = other)) ∧
      (∀ part : String, relationshipsName part = packageRelationships ↔ part = "") ∧
      ∀ (part : String) (package another : Package), part ≠ "" → package.parser = another.parser →
        (∀ name, name ≠ packageRelationships → package.read? name = another.read? name) →
          readTargets package part = readTargets another part := by
  refine ⟨?_, ?_, ?_, ?_⟩
  · intro part other
    exact relationshipsName_eq_iff
  · intro part other single otherSingle
    exact relationshipsName_inj single otherSingle
  · intro part
    exact relationshipsName_eq_packageRelationships_iff
  · intro part package another named parser same
    refine readTargets_congr parser (same _ ?_)
    exact relationshipsName_eq_packageRelationships_iff.not.2 named

/-! ## A package with its relationships and without them -/

def unrelatedArchive : Package :=
  { headerArchive with entries := headerArchive.entries.tail }

theorem openEntry_unrelatedArchive {entry : Archive.Entry}
    (stops : headerArchive.stop entry = unrelatedArchive.stop entry) :
    headerArchive.openEntry entry = unrelatedArchive.openEntry entry := by
  unfold Archive.openEntry
  rw [stops]
  rfl

theorem read?_unrelatedArchive {name : String} (other : name ≠ packageRelationships) :
    headerArchive.read? name = unrelatedArchive.read? name := by
  have names : headerArchive.names = [packageRelationships, "word/header.xml"] := by decide +kernel
  have namesLeft : unrelatedArchive.names = ["word/header.xml"] := by decide +kernel
  by_cases header : name = "word/header.xml"
  · subst header
    have found : ∃ entry ∈ unrelatedArchive.entries,
        headerArchive.find? "word/header.xml" = some entry ∧
          unrelatedArchive.find? "word/header.xml" = some entry := by
      decide +kernel
    have stops : ∀ entry ∈ unrelatedArchive.entries,
        headerArchive.stop entry = unrelatedArchive.stop entry := by
      decide +kernel
    obtain ⟨entry, member, first, second⟩ := found
    have opened : headerArchive.open? "word/header.xml" = unrelatedArchive.open? "word/header.xml" := by
      rw [Archive.open?, Archive.open?, first, second]
      exact congrArg some (openEntry_unrelatedArchive (stops entry member))
    rw [Archive.read?, Archive.read?, opened]
  · rw [read?_eq_none, read?_eq_none]
    · simp [namesLeft, header]
    · simp [names, header, other]

theorem relationshipsName_headerPart :
    (¬['/', '/'] <:+: "word/header.xml".toList ∧ ¬['/', '/'] <:+: "word/_rels/header.xml".toList ∧
        relationshipsName "word/header.xml" ≠ relationshipsName "word/_rels/header.xml") ∧
      headerArchive.read? packageRelationships = some (.ok headerRelationships.toUTF8) ∧
      unrelatedArchive.read? packageRelationships = none ∧
      (∀ name, name ≠ packageRelationships →
        headerArchive.read? name = unrelatedArchive.read? name) ∧
      readTargets headerArchive "word/header.xml" =
        readTargets unrelatedArchive "word/header.xml" := by
  obtain ⟨-, determines, -, ignores⟩ := relationshipsName_separates
  have single : ¬['/', '/'] <:+: "word/header.xml".toList := by decide
  have otherSingle : ¬['/', '/'] <:+: "word/_rels/header.xml".toList := by decide
  have different : "word/header.xml" ≠ "word/_rels/header.xml" := by decide
  have named : "word/header.xml" ≠ "" := by decide
  have unrelated : unrelatedArchive.read? packageRelationships = none :=
    read?_eq_none (by decide +kernel)
  have alike : ∀ name, name ≠ packageRelationships →
      headerArchive.read? name = unrelatedArchive.read? name :=
    fun _ other => read?_unrelatedArchive other
  have apart := (determines _ _ single otherSingle).not.2 different
  exact ⟨⟨single, otherSingle, apart⟩, read?_headerRelationships, unrelated, alike,
    ignores _ _ _ named rfl alike⟩

end WordStream.Package

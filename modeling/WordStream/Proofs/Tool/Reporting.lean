import WordStream.Proofs.Archive.Legible
import WordStream.Proofs.Tool.Agreement

/-!
# Which failures are reported

A tool reports that there is no document or none to be read, that a part is missing, and that one is
malformed. What it meets besides it passes on as it is: links that lead round to one another, what the system
refuses, a directory with an entry that cannot be taken in, and a faulty member on the way to what was
asked for.
-/

set_option autoImplicit false

namespace WordStream

open Package (packageRelationships relationshipsName)

/-! ## Passing on -/

/-- Whether a result is a failure that no tool reports, and for this cause. -/
def PassesOn {α : Type} (result : Except Failure α) (cause : Failure) : Prop :=
  result = .error cause ∧ cause.isReported = false

theorem Failure.isReported_archive_iff {fault : Archive.Fault} :
    (Failure.archive fault).isReported = false ↔ fault ≠ .unreadable := by
  cases fault <;> simp [Failure.isReported]

namespace PassesOn

variable {α β : Type} {cause : Failure}

@[simp]
theorem not_ok {found : α} : ¬PassesOn (.ok found) cause :=
  fun passed => nomatch passed.1

@[simp]
theorem not_pure {found : α} : ¬PassesOn (pure found) cause :=
  not_ok

theorem error_iff {met : Failure} :
    PassesOn (.error met : Except Failure α) cause ↔ met = cause ∧ met.isReported = false := by
  constructor
  · rintro ⟨same, unreported⟩
    cases same
    exact ⟨rfl, unreported⟩
  · rintro ⟨rfl, unreported⟩
    exact ⟨rfl, unreported⟩

theorem not_of_isReported {met : Failure} (reported : met.isReported = true) :
    ¬PassesOn (.error met : Except Failure α) cause := by
  intro passed
  obtain ⟨-, unreported⟩ := error_iff.mp passed
  exact Bool.false_ne_true (unreported.symm.trans reported)

theorem bind_iff {result : Except Failure α} {onward : α → Except Failure β} :
    PassesOn (result >>= onward) cause ↔
      PassesOn result cause ∨ ∃ found, result = .ok found ∧ PassesOn (onward found) cause := by
  cases result with
  | error met =>
      have stopped : (Except.error met >>= onward) = .error met := rfl
      simp [stopped, error_iff]
  | ok found =>
      have taken : (Except.ok found >>= onward) = onward found := rfl
      simp [taken]

theorem bind_first {result : Except Failure α} {onward : α → Except Failure β}
    (passed : PassesOn result cause) : PassesOn (result >>= onward) cause :=
  bind_iff.mpr (.inl passed)

theorem bind_next {result : Except Failure α} {onward : α → Except Failure β} {found : α}
    (taken : result = .ok found) (passed : PassesOn (onward found) cause) :
    PassesOn (result >>= onward) cause :=
  bind_iff.mpr (.inr ⟨found, taken, passed⟩)

theorem bind_iff_left {result : Except Failure α} {onward : α → Except Failure β}
    (after : ∀ found, ¬PassesOn (onward found) cause) :
    PassesOn (result >>= onward) cause ↔ PassesOn result cause := by
  rw [bind_iff, or_iff_left]
  rintro ⟨found, -, passed⟩
  exact after found passed

theorem map_iff {result : Except Failure α} {change : α → β} :
    PassesOn (result.map change) cause ↔ PassesOn result cause := by
  cases result with
  | error met => simp [Except.map, error_iff]
  | ok found => simp [Except.map]

theorem mapError_iff {Fault : Type} {result : Except Fault α} {wrap : Fault → Failure} :
    PassesOn (result.mapError wrap) cause ↔
      ∃ fault, result = .error fault ∧ wrap fault = cause ∧ cause.isReported = false := by
  cases result with
  | ok found =>
      refine iff_of_false not_ok ?_
      rintro ⟨fault, met, -⟩
      cases met
  | error fault =>
      constructor
      · rintro ⟨met, unreported⟩
        exact ⟨fault, rfl, Except.error.inj met, unreported⟩
      · rintro ⟨_, met, wrapped, unreported⟩
        cases met
        exact ⟨congrArg Except.error wrapped, unreported⟩

theorem mapError_archive_iff {result : Except Archive.Fault α} :
    PassesOn (result.mapError .archive) cause ↔
      ∃ fault, result = .error fault ∧ fault ≠ .unreadable ∧ cause = .archive fault := by
  rw [mapError_iff]
  constructor
  · rintro ⟨fault, met, rfl, unreported⟩
    exact ⟨fault, met, Failure.isReported_archive_iff.mp unreported, rfl⟩
  · rintro ⟨fault, met, other, rfl⟩
    exact ⟨fault, met, rfl, Failure.isReported_archive_iff.mpr other⟩

theorem of_archive {result : Except Archive.Fault α} {fault : Archive.Fault}
    (met : result = .error fault) (other : fault ≠ .unreadable) :
    PassesOn (result.mapError .archive) (.archive fault) :=
  mapError_archive_iff.mpr ⟨fault, met, other, rfl⟩

theorem mapError_input_iff {result : Except Input.Fault α} :
    PassesOn (result.mapError .input) cause ↔
      (∃ path, result = .error (.linkLoop path) ∧ cause = .input (.linkLoop path)) ∨
        ∃ error path, result = .error (.system error path) ∧ cause = .input (.system error path) := by
  rw [mapError_iff]
  constructor
  · rintro ⟨fault, met, rfl, unreported⟩
    cases fault with
    | linkLoop path => exact .inl ⟨path, met, rfl⟩
    | system error path => exact .inr ⟨error, path, met, rfl⟩
    | _ => cases unreported
  · rintro (⟨path, met, rfl⟩ | ⟨error, path, met, rfl⟩)
    · exact ⟨.linkLoop path, met, rfl, rfl⟩
    · exact ⟨.system error path, met, rfl, rfl⟩

theorem mapError_eq_ok_iff {Fault : Type} {result : Except Fault α} {wrap : Fault → Failure}
    {found : α} : result.mapError wrap = .ok found ↔ result = .ok found := by
  constructor
  · intro taken
    cases result with
    | ok other => exact congrArg Except.ok (Except.ok.inj taken)
    | error fault => cases taken
  · rintro rfl
    rfl

end PassesOn

/-! ## What packages pass on -/

namespace Package

variable {package : Package} {part : String} {cause : Failure}

theorem partData?_passesOn_iff :
    PassesOn (partData? package part) cause ↔
      ∃ fault, package.read? part = some (.error fault) ∧ cause = .archive fault := by
  unfold partData?
  cases found : package.read? part with
  | none => simp
  | some data =>
      simp only [PassesOn.map_iff, PassesOn.mapError_archive_iff, Option.some.injEq]
      constructor
      · rintro ⟨fault, met, -, named⟩
        exact ⟨fault, met, named⟩
      · rintro ⟨fault, rfl, named⟩
        exact ⟨fault, rfl, Archive.ne_unreadable_of_read? found, named⟩

theorem not_passesOn_relationshipsFrom {parser : Markup.Parser} {data : ByteArray} :
    ¬PassesOn (relationshipsFrom parser part data) cause := by
  unfold relationshipsFrom
  cases relationshipsOf? parser data with
  | none => simp [PassesOn.error_iff, Failure.isReported]
  | some relationships => simp

theorem mainDocument_passesOn_iff :
    PassesOn (mainDocument package) cause ↔
      ∃ fault, package.read? packageRelationships = some (.error fault) ∧
        cause = .archive fault := by
  unfold mainDocument
  rw [PassesOn.bind_iff_left, partData?_passesOn_iff]
  intro found passed
  cases found with
  | none => exact PassesOn.not_pure passed
  | some data =>
      obtain passed | ⟨relationships, -, passed⟩ := PassesOn.bind_iff.mp passed
      · exact not_passesOn_relationshipsFrom passed
      · split at passed <;> exact PassesOn.not_pure passed

theorem bodyParts_passesOn_iff :
    PassesOn (bodyParts package) cause ↔
      ∃ fault, package.read? packageRelationships = some (.error fault) ∧
        cause = .archive fault := by
  unfold bodyParts
  rw [PassesOn.bind_iff_left fun _ => PassesOn.not_pure, mainDocument_passesOn_iff]

theorem readTargets_passesOn_iff :
    PassesOn (readTargets package part) cause ↔
      ∃ fault, package.read? (relationshipsName part) = some (.error fault) ∧
        cause = .archive fault := by
  unfold readTargets
  rw [PassesOn.bind_iff_left, partData?_passesOn_iff]
  intro found passed
  cases found with
  | none => exact PassesOn.not_pure passed
  | some data =>
      have passed := (PassesOn.bind_iff_left fun _ => PassesOn.not_pure).mp passed
      exact not_passesOn_relationshipsFrom passed

/-- A faulty member in the way of a part before it is open: its relationships, itself, or, where there is no
such part, the relationships of the package, from which the parts are told that there are. -/
inductive OpeningObstacle (package : Package) (part : String) : Archive.Fault → Prop where
  | relationships {fault : Archive.Fault}
      (met : package.read? (relationshipsName part) = some (.error fault)) :
      OpeningObstacle package part fault
  | member {targets : Markup.Attributes} {fault : Archive.Fault}
      (related : readTargets package part = .ok targets)
      (met : package.open? part = some (.error fault)) :
      OpeningObstacle package part fault
  | listing {targets : Markup.Attributes} {fault : Archive.Fault}
      (related : readTargets package part = .ok targets)
      (absent : package.open? part = none)
      (met : package.read? packageRelationships = some (.error fault)) :
      OpeningObstacle package part fault

/-- A faulty member in the way of a part: what is in the way before it is open, or the part itself while it is
read, of which nothing is refused until then. -/
inductive Obstacle (size : Nat) (package : Package) (part : String) : Archive.Fault → Prop where
  | opening {fault : Archive.Fault} (met : OpeningObstacle package part fault) :
      Obstacle size package part fault
  | reading {targets : Markup.Attributes} {member : Archive.Member} {fault : Archive.Fault}
      (opened : openPart package part = .ok (targets, member))
      (told : (package.parser.feed (member.chunks size).1).accepted = true)
      (met : (member.chunks size).2 = some fault) :
      Obstacle size package part fault

theorem openPart_passesOn_iff :
    PassesOn (openPart package part) cause ↔
      ∃ fault, OpeningObstacle package part fault ∧ cause = .archive fault := by
  unfold openPart
  constructor
  · intro passed
    obtain passed | ⟨targets, related, passed⟩ := PassesOn.bind_iff.mp passed
    · obtain ⟨fault, met, named⟩ := readTargets_passesOn_iff.mp passed
      exact ⟨fault, .relationships met, named⟩
    · cases opened : package.open? part with
      | none =>
          rw [opened] at passed
          obtain passed | ⟨present, -, passed⟩ := PassesOn.bind_iff.mp passed
          · obtain ⟨fault, met, named⟩ := bodyParts_passesOn_iff.mp passed
            exact ⟨fault, .listing related opened met, named⟩
          · exact absurd passed (PassesOn.not_of_isReported rfl)
      | some result =>
          rw [opened] at passed
          have passed := (PassesOn.bind_iff_left fun _ => PassesOn.not_pure).mp passed
          obtain ⟨fault, rfl, -, named⟩ := PassesOn.mapError_archive_iff.mp passed
          exact ⟨fault, .member related opened, named⟩
  · rintro ⟨fault, obstacle, rfl⟩
    cases obstacle with
    | relationships met =>
        exact PassesOn.bind_first (readTargets_passesOn_iff.mpr ⟨fault, met, rfl⟩)
    | member related met =>
        refine PassesOn.bind_next related ?_
        rw [met]
        exact PassesOn.bind_first (PassesOn.of_archive rfl (Archive.ne_unreadable_of_open? met))
    | listing related absent met =>
        refine PassesOn.bind_next related ?_
        rw [absent]
        exact PassesOn.bind_first (bodyParts_passesOn_iff.mpr ⟨fault, met, rfl⟩)

/-- What an open part is refused for and not reported is a fault of its member, and nothing is malformed
before it. -/
theorem readOpened_eq_some_iff {settings : Settings} {member : Archive.Member} :
    (readOpened settings package part member).2 = some cause ∧ cause.isReported = false ↔
      ∃ fault, (package.parser.feed (member.chunks settings.chunkSize).1).accepted = true ∧
        (member.chunks settings.chunkSize).2 = some fault ∧ cause = .archive fault := by
  unfold readOpened callsOfChunks
  dsimp only
  cases told : (package.parser.feed (member.chunks settings.chunkSize).1).accepted with
  | false =>
      refine iff_of_false ?_ (by simp)
      rintro ⟨met, unreported⟩
      cases met
      cases unreported
  | true =>
      cases met : (member.chunks settings.chunkSize).2 with
      | none =>
          refine iff_of_false ?_ (by simp)
          cases (package.parser.close (member.chunks settings.chunkSize).1).accepted with
          | true => exact fun refused => nomatch refused.1
          | false =>
              rintro ⟨refused, unreported⟩
              cases refused
              cases unreported
      | some fault =>
          have unreported : (Failure.archive fault).isReported = false :=
            Failure.isReported_archive_iff.mpr (Archive.ne_unreadable_of_chunks met)
          constructor
          · rintro ⟨same, -⟩
            cases same
            exact ⟨fault, rfl, rfl, rfl⟩
          · rintro ⟨_, -, same, rfl⟩
            cases same
            exact ⟨rfl, unreported⟩

theorem renderPart_eq_some_iff {Store : Type} {settings : Settings} (sink : Sink Store)
    (store : Store) :
    (renderPart settings sink store package part).2 = some cause ∧ cause.isReported = false ↔
      ∃ fault, Obstacle settings.chunkSize package part fault ∧ cause = .archive fault := by
  unfold renderPart
  cases opened : openPart package part with
  | error met =>
      have passes : PassesOn (openPart package part) cause ↔ _ := openPart_passesOn_iff
      rw [opened, PassesOn.error_iff] at passes
      constructor
      · rintro ⟨same, unreported⟩
        cases same
        obtain ⟨fault, obstacle, named⟩ := passes.mp ⟨rfl, unreported⟩
        exact ⟨fault, .opening obstacle, named⟩
      · rintro ⟨fault, obstacle, rfl⟩
        cases obstacle with
        | opening obstacle =>
            obtain ⟨rfl, unreported⟩ := passes.mpr ⟨fault, obstacle, rfl⟩
            exact ⟨rfl, unreported⟩
        | reading found => rw [opened] at found; cases found
  | ok found =>
      obtain ⟨targets, member⟩ := found
      refine readOpened_eq_some_iff.trans ⟨?_, ?_⟩
      · rintro ⟨fault, told, met, rfl⟩
        exact ⟨fault, .reading opened told met, rfl⟩
      · rintro ⟨fault, obstacle, rfl⟩
        cases obstacle with
        | opening obstacle =>
            have passed := openPart_passesOn_iff.mpr ⟨fault, obstacle, rfl⟩
            rw [opened] at passed
            exact absurd passed PassesOn.not_ok
        | reading found told met =>
            rw [opened] at found
            cases found
            exact ⟨fault, told, met, rfl⟩

end Package

/-! ## What tools pass on -/

/-- What is in the way of a request in the bytes of an archive: an entry of its directory, the relationships
of the package where they are asked for the parts or the main document, or what is in the way of the part. -/
inductive Tool.Obstacle (tool : Tool) (libraries : Libraries) (request : Request)
    (bytes : ByteArray) : Archive.Fault → Prop where
  | directory {fault : Archive.Fault}
      (met : Archive.ofBytes libraries.unpackers bytes = .error fault) (other : fault ≠ .unreadable) :
      Obstacle tool libraries request bytes fault
  | relationships {package : Package} {fault : Archive.Fault}
      (opened : Package.ofBytes libraries bytes = .ok package)
      (asked : tool = .parts ∨ request.part = "")
      (met : package.read? packageRelationships = some (.error fault)) :
      Obstacle tool libraries request bytes fault
  | part {package : Package} {part : String} {fault : Archive.Fault}
      (opened : Package.ofBytes libraries bytes = .ok package) (asked : tool ≠ .parts)
      (named : request.partIn package = .ok part)
      (met : Package.Obstacle Settings.standard.chunkSize package part fault) :
      Obstacle tool libraries request bytes fault

/-- The causes that a tool passes on. -/
inductive Tool.Unreported (tool : Tool) (libraries : Libraries) (files : Input.Files)
    (request : Request) : Failure → Prop where
  | links {path : String} (met : request.source.bytes files = .error (.linkLoop path)) :
      Unreported tool libraries files request (.input (.linkLoop path))
  | system {error : Input.SystemError} {path : Option String}
      (met : request.source.bytes files = .error (.system error path)) :
      Unreported tool libraries files request (.input (.system error path))
  | archive {bytes : ByteArray} {fault : Archive.Fault}
      (handed : request.source.bytes files = .ok bytes)
      (met : tool.Obstacle libraries request bytes fault) :
      Unreported tool libraries files request (.archive fault)

section Requests

variable {request : Request} {libraries : Libraries} {files : Input.Files} {bytes : ByteArray}
  {cause : Failure}

theorem Request.partIn_passesOn_iff {package : Package} :
    PassesOn (request.partIn package) cause ↔
      request.part = "" ∧ ∃ fault, package.read? packageRelationships = some (.error fault) ∧
        cause = .archive fault := by
  unfold Request.partIn
  split
  · rename_i empty
    rw [Package.mainDocument_passesOn_iff, and_iff_right (String.isEmpty_iff.mp empty)]
  · rename_i filled
    refine iff_of_false PassesOn.not_ok ?_
    rintro ⟨empty, -⟩
    exact filled (String.isEmpty_iff.mpr empty)

/-- Opening a package passes on what its directory does. -/
theorem Package.ofBytes_passesOn_iff :
    PassesOn (Package.ofBytes libraries bytes) cause ↔
      ∃ fault, Archive.ofBytes libraries.unpackers bytes = .error fault ∧ fault ≠ .unreadable ∧
        cause = .archive fault := by
  rw [Package.ofBytes, PassesOn.map_iff, PassesOn.mapError_archive_iff]

theorem Request.ofRendered_passesOn_iff {Store : Type} {part : String}
    {rendered : Body.Rendition Store × Option Failure} :
    PassesOn (Request.ofRendered part rendered) cause ↔ rendered.2 = some cause ∧ cause.isReported = false := by
  obtain ⟨rendition, failure⟩ := rendered
  cases failure with
  | none => exact iff_of_false PassesOn.not_ok fun met => absurd met.1.symm (Option.some_ne_none cause)
  | some met =>
      refine PassesOn.error_iff.trans ?_
      rw [Option.some_inj]
      exact and_congr_right fun same => by rw [same]

theorem Request.render_passesOn_iff {Store : Type} {tool : Tool} (asked : tool ≠ .parts)
    {settings : Settings} (usual : settings.chunkSize = Settings.standard.chunkSize)
    {sink : Sink Store} {store : Store} :
    PassesOn (request.render libraries settings sink store bytes) cause ↔
      ∃ fault, tool.Obstacle libraries request bytes fault ∧ cause = .archive fault := by
  have ended : ∀ (package : Package) (part : String),
      PassesOn (Request.ofRendered part (Package.renderPart settings sink store package part)) cause ↔
      ∃ fault, Package.Obstacle Settings.standard.chunkSize package part fault ∧
        cause = .archive fault := by
    intro package part
    rw [Request.ofRendered_passesOn_iff, ← usual]
    exact Package.renderPart_eq_some_iff sink store
  unfold Request.render
  constructor
  · intro passed
    obtain passed | ⟨package, opened, passed⟩ := PassesOn.bind_iff.mp passed
    · obtain ⟨fault, met, other, named⟩ := Package.ofBytes_passesOn_iff.mp passed
      exact ⟨fault, .directory met other, named⟩
    · obtain passed | ⟨part, found, passed⟩ := PassesOn.bind_iff.mp passed
      · obtain ⟨empty, fault, met, named⟩ := Request.partIn_passesOn_iff.mp passed
        exact ⟨fault, .relationships opened (.inr empty) met, named⟩
      · obtain ⟨fault, obstacle, named⟩ := (ended package part).mp passed
        exact ⟨fault, .part opened asked found obstacle, named⟩
  · rintro ⟨fault, obstacle, rfl⟩
    cases obstacle with
    | directory met other =>
        exact PassesOn.bind_first (Package.ofBytes_passesOn_iff.mpr ⟨fault, met, other, rfl⟩)
    | relationships opened empty met =>
        refine PassesOn.bind_next opened (PassesOn.bind_first ?_)
        exact Request.partIn_passesOn_iff.mpr ⟨empty.resolve_left asked, fault, met, rfl⟩
    | part opened _ found obstacle =>
        refine PassesOn.bind_next opened (PassesOn.bind_next found ?_)
        exact (ended _ _).mpr ⟨fault, obstacle, rfl⟩

theorem Request.bodyParts_passesOn_iff :
    PassesOn (Package.ofBytes libraries bytes >>= Package.bodyParts) cause ↔
      ∃ fault, Tool.parts.Obstacle libraries request bytes fault ∧ cause = .archive fault := by
  constructor
  · intro passed
    obtain passed | ⟨package, opened, passed⟩ := PassesOn.bind_iff.mp passed
    · obtain ⟨fault, met, other, named⟩ := Package.ofBytes_passesOn_iff.mp passed
      exact ⟨fault, .directory met other, named⟩
    · obtain ⟨fault, met, named⟩ := Package.bodyParts_passesOn_iff.mp passed
      exact ⟨fault, .relationships opened (.inl rfl) met, named⟩
  · rintro ⟨fault, obstacle, rfl⟩
    cases obstacle with
    | directory met other =>
        exact PassesOn.bind_first (Package.ofBytes_passesOn_iff.mpr ⟨fault, met, other, rfl⟩)
    | relationships opened asked met =>
        refine PassesOn.bind_next opened ?_
        exact Package.bodyParts_passesOn_iff.mpr ⟨fault, met, rfl⟩
    | part opened asked => exact absurd rfl asked

/-- All tools take the bytes first. -/
theorem Request.bytes_bind_passesOn_iff {α : Type} {tool : Tool}
    {onward : ByteArray → Except Failure α}
    (after : ∀ bytes, PassesOn (onward bytes) cause ↔
      ∃ fault, tool.Obstacle libraries request bytes fault ∧ cause = .archive fault) :
    PassesOn (request.bytes files >>= onward) cause ↔
      tool.Unreported libraries files request cause := by
  rw [PassesOn.bind_iff, Request.bytes, PassesOn.mapError_input_iff]
  constructor
  · rintro ((⟨path, met, rfl⟩ | ⟨error, path, met, rfl⟩) | ⟨bytes, handed, passed⟩)
    · exact .links met
    · exact .system met
    · obtain ⟨fault, obstacle, rfl⟩ := (after bytes).mp passed
      exact .archive (PassesOn.mapError_eq_ok_iff.mp handed) obstacle
  · rintro (met | met | ⟨handed, obstacle⟩)
    · exact .inl (.inl ⟨_, met, rfl⟩)
    · exact .inl (.inr ⟨_, _, met, rfl⟩)
    · exact .inr ⟨_, PassesOn.mapError_eq_ok_iff.mpr handed, (after _).mpr ⟨_, obstacle, rfl⟩⟩

end Requests

/-- What a tool finds, without its name on a failure. -/
def Tool.result (tool : Tool) (libraries : Libraries) (files : Input.Files) (request : Request) :
    Except Failure Answer :=
  match tool with
  | .events => (request.events libraries files).map fun found => .events found.1 found.2
  | .text => (request.text libraries files).map fun found => .text found.1 found.2
  | .parts => (request.parts libraries files).map .parts

theorem Tool.answer_eq_mapError (tool : Tool) (libraries : Libraries) (files : Input.Files)
    (request : Request) :
    tool.answer libraries files request =
      (tool.result libraries files request).mapError fun cause => { tool := tool.name, cause } := rfl

theorem Tool.result_passesOn_iff {tool : Tool} {libraries : Libraries} {files : Input.Files}
    {source : Input.Source} {part : String} {deletedText moveFromText : Option Bool}
    {cause : Failure} :
    let request := Request.ofFlags source part deletedText moveFromText
    PassesOn (tool.result libraries files request) cause ↔
      tool.Unreported libraries files request cause := by
  intro request
  cases tool with
  | parts =>
      rw [Tool.result, PassesOn.map_iff]
      exact Request.bytes_bind_passesOn_iff fun bytes => Request.bodyParts_passesOn_iff
  | text =>
      rw [Tool.result, PassesOn.map_iff]
      refine Request.bytes_bind_passesOn_iff fun bytes => ?_
      rw [PassesOn.bind_iff_left fun _ => PassesOn.not_pure]
      exact Request.render_passesOn_iff (by decide) rfl
  | events =>
      rw [Tool.result, PassesOn.map_iff]
      refine Request.bytes_bind_passesOn_iff fun bytes => ?_
      -- Of the settings only the size of the chunks matters here.
      obtain ⟨settings, chosen, usual⟩ : ∃ settings, request.settings = pure settings ∧
          settings.chunkSize = Settings.standard.chunkSize :=
        ⟨_, Request.settings_ofFlags, rfl⟩
      rw [chosen, pure_bind, PassesOn.bind_iff_left fun _ => PassesOn.not_pure]
      exact Request.render_passesOn_iff (by decide) usual

/-! ## How failures read -/

/-- The first letters of the tools' names. -/
def Tool.initials : List Char := ['e', 'l']

theorem Archive.Fault.head_message {fault : Archive.Fault} (other : fault ≠ .unreadable) :
    ∀ letter ∈ fault.message.toList.head?, letter ∉ Tool.initials := by
  -- The wording is opened before the cases, as its equations, one for each fault, are slow to come by.
  delta Archive.Fault.message
  cases fault with
  | unreadable => exact absurd rfl other
  | undecodableName fault =>
      delta Text.Utf8Fault.message
      dsimp only
      simp [Tool.initials]
  | refusedData refusal => cases refusal <;> simp [Refusal.message, Tool.initials]
  | _ =>
      dsimp only
      simp [Tool.initials]

theorem Failure.head_message {cause : Failure} (unreported : cause.isReported = false) :
    ∀ letter ∈ cause.message.toList.head?, letter ∉ Tool.initials := by
  cases cause with
  | archive fault =>
      exact Archive.Fault.head_message (Failure.isReported_archive_iff.mp unreported)
  | input fault =>
      cases fault with
      | linkLoop path =>
          have worded : (Failure.input (.linkLoop path)).message =
              "Symlink loop from " ++ Text.quote path := rfl
          rw [worded]
          simp [Tool.initials]
      | system error path =>
          have worded : (Failure.input (.system error path)).message =
              "[Errno " ++ toString error.number ++ "] " ++ error.wording ++
                path.elim "" fun path => ": " ++ Text.quote path := by
            cases path <;> rfl
          rw [worded]
          simp [Tool.initials]
      | _ => exact nomatch unreported
  | missingPart | malformedPart => exact nomatch unreported
  | longRequest =>
      have other : Archive.Fault.longRequest ≠ .unreadable := by decide
      exact Archive.Fault.head_message other
  | settings rejections =>
      have unworded : (Failure.settings rejections).message = "" := rfl
      rw [unworded]
      simp

/-- A failure that is passed on does not begin as those of a tool do. -/
theorem Tool.not_prefix_of_unreported {tool : Tool} {cause : Failure}
    (unreported : cause.isReported = false) :
    ¬(tool.name ++ " error: ").toList <+: cause.message.toList := by
  rintro ⟨rest, whole⟩
  have letters := Failure.head_message unreported
  rw [← whole] at letters
  cases tool <;> simp [Tool.name, Tool.initials] at letters

instance decidableEqExcept {Fault Value : Type} [DecidableEq Fault] [DecidableEq Value] :
    DecidableEq (Except Fault Value)
  | .error fault, .error other =>
      decidable_of_iff (fault = other) ⟨congrArg Except.error, Except.error.inj⟩
  | .ok value, .ok other => decidable_of_iff (value = other) ⟨congrArg Except.ok, Except.ok.inj⟩
  | .error _, .ok _ => isFalse fun same => by cases same
  | .ok _, .error _ => isFalse fun same => by cases same

/-- An archive in which a byte of the relationships of the package is not what it was. -/
def damagedSource : Input.Source where
  text := "UEsDBBQAAAAAAAAAIQCC2RzVEAAAABAAAAALAAAAX3JlbHMvLnJlbHM8cmVsYXRpb25zaGlwcy8+UEsBAhQAFAAAAAAA" ++
    "AAAhAILZHNUQAAAAEAAAAAsAAAAAAAAAAAAAAIABAAAAAF9yZWxzLy5yZWxzUEsFBgAAAAABAAEAOQAAADkAAAAAAA=="

end WordStream

import WordStream.Proofs.Body.Report

/-!
# What is told of pictures

A picture is reported when it ends, with the data that were mentioned last. A translation keeps one set of
picture data, which every element that gives some may fill and every end of a picture empties. Data that no
picture has taken up wait for the next one.
-/

set_option autoImplicit false

namespace WordStream.Body

open Markup (Attributes Call Place Tree joinName)

variable {context : Context}

/-! ## Picture data -/

structure PictureData where
  id : Option String := none
  description : Option String := none
deriving DecidableEq, Repr

/-- The relationship that an element gives to a picture, if it is one that gives some or none. -/
def givenId? : Mention → Option (Option String)
  | (.blip, attributes) => some (attributes.get? (joinName relationshipSpace "embed"))
  | (.imageData, attributes) => some (attributes.get? (joinName relationshipSpace "id"))
  | _ => none

def givenDescription? : Mention → Option (Option String)
  | (.drawingProperties, attributes) => some (attributes.get? "descr")
  | (.imageData, attributes) => some (attributes.get? (joinName officeSpace "title"))
  | _ => none

namespace PictureData

/-- The data once elements were mentioned, of which the last to give some counts. -/
def updated (data : PictureData) (mentioned : List Mention) : PictureData where
  id := (mentioned.filterMap givenId?).getLast?.getD data.id
  description := (mentioned.filterMap givenDescription?).getLast?.getD data.description

theorem updated_append (data : PictureData) (former latter : List Mention) :
    data.updated (former ++ latter) = (data.updated former).updated latter := by
  simp only [updated, List.filterMap_append, List.getLast?_append, Option.getD_or]

/-- The picture with these data, with the target of its relationship for a file. -/
def event (context : Context) (data : PictureData) : Event :=
  .picture (data.id.bind context.target?) data.description

end PictureData

def everyTag (_ancestors : List Kind) (_tag : Tag) : Bool := true

/-! ## The data that are kept -/

def State.pictureData (state : State) : PictureData where
  id := state.pictureId
  description := state.pictureDescription

theorem startKind_pictureData (attributes : Attributes) (state : State) (kind : Kind) :
    (startKind context attributes state kind).state.pictureData =
      state.pictureData.updated (kind.mention everyTag [] attributes) := by
  rw [state_startKind]
  cases kind with
  | branch | other => rfl
  | content tag => cases tag <;> rfl

theorem finishKind_pictureData (state : State) (kind : Kind) :
    (finishKind context state kind).state.pictureData =
      if kind.isPicture then {} else state.pictureData := by
  rw [state_finishKind]
  cases picture : kind.isPicture <;> simp [State.pictureData, State.closed, picture]

/-- The picture data go on by themselves. -/
def pictureView (context : Context) : View context PictureData where
  read state _ := state.pictureData
  opens attributes kind data := data.updated (kind.mention everyTag [] attributes)
  closes kind data := if kind.isPicture then {} else data
  texts _ data := data
  allows _ := True
  read_start state _ attributes kind := startKind_pictureData attributes _ kind
  read_finish state _ kind := finishKind_pictureData state kind
  read_text policy state _ content _ := by split <;> rfl

theorem pictureView_of (session : Session) :
    (pictureView context).of session = session.state.pictureData := rfl

/-- Where no picture ends the data are those mentioned last. -/
theorem pictureView_traces :
    (pictureView context).Traces (fun _ kind => !kind.isPicture) everyTag
      (fun _ before mentioned after => after = before.updated mentioned) where
  nil _ _ := rfl
  append _ _ _ _ former latter first rest := by
    rw [rest, first, PictureData.updated_append]
  text _ _ _ := rfl
  element ancestors attributes kind data inner mentioned plain _ inside := by
    rw [Bool.not_eq_true'] at plain
    have closed : (pictureView context).closes kind inner = inner := by
      simp only [pictureView, plain, Bool.false_eq_true, if_false]
    have same : kind.mention everyTag ancestors attributes =
        kind.mention everyTag [] attributes := by
      cases kind <;> rfl
    rw [closed, inside, same, PictureData.updated_append]
    rfl

/-! ## Where data and pictures stand -/

/-- Picture data stand in pictures only, and pictures are not inside of one another. -/
def pictureGrammar : Grammar := fun ancestors kind =>
  match kind with
  | .content .blip | .content .imageData | .content .drawingProperties =>
      ancestors.any Kind.isPicture
  | .content .picture | .content .legacyPicture => !ancestors.any Kind.isPicture
  | _ => true

theorem pictureView_keeps :
    (pictureView context).Keeps pictureGrammar
      (fun ancestors data => ancestors.any Kind.isPicture = false → data = {}) where
  opens ancestors attributes kind data allowed _ held outside := by
    rw [List.any_cons, Bool.or_eq_false_iff] at outside
    obtain ⟨plain, outer⟩ := outside
    have empty := held outer
    subst empty
    cases kind with
    | branch branch => rfl
    | other => rfl
    | content tag =>
        cases tag with
        -- Outside pictures the grammar has no elements that give picture data.
        | blip | imageData | drawingProperties =>
            simp only [pictureGrammar, outer, Bool.false_eq_true] at allowed
        | _ => rfl
  closes ancestors kind _ data _ _ held outer := by
    cases plain : kind.isPicture with
    | true => simp only [pictureView, plain, if_true]
    | false =>
        have empty : data = {} := by
          apply held
          rw [List.any_cons, plain, outer]
          rfl
        simp only [pictureView, plain, Bool.false_eq_true, if_false, empty]
  texts _ _ _ held := held

/-! ## What is reported of a picture -/

theorem skipped_of_isPicture {kind : Kind} (picture : kind.isPicture = true) :
    kind.skipped context = false := by
  obtain rfl | rfl := Kind.eq_of_isPicture picture <;> rfl

theorem finishKind_picture (state : State) {kind : Kind} (picture : kind.isPicture = true) :
    (finishKind context state kind).events = [state.pictureData.event context] := by
  obtain rfl | rfl := Kind.eq_of_isPicture picture <;> rfl

theorem pictureView_opens_picture (attributes : Attributes) {kind : Kind} (data : PictureData)
    (picture : kind.isPicture = true) :
    (pictureView context).opens attributes kind data = data := by
  obtain rfl | rfl := Kind.eq_of_isPicture picture <;> rfl

/-- Whatever the policies, a picture that holds no other is reported with the data that were mentioned
last inside of it, and where none were with those that wait when it begins. None wait where picture data
stand in pictures only. -/
theorem reportedAt_picture {place : Place} {tag : String} {kind : Kind} {attributes : Attributes}
    {children : List Tree} {turns : List Turn}
    (named : (place.fill (.element tag attributes children)).all Tree.isNamed = true)
    (shown : isShown context place = true) (found : Kind.ofTag? tag = some kind)
    (picture : kind.isPicture = true)
    (alone : followsOfList context (fun _ kind => !kind.isPicture) [] children = true)
    (told : turns.map Prod.snd = (place.fill (.element tag attributes children)).calls) :
    let waiting := (Session.turns context {} (turns.take place.before.length)).state.pictureData
    let inside := mentionsOfList context everyTag [] children
    (∃ early : List Event, reportedAt context place (.element tag attributes children) turns =
        early ++ [(waiting.updated inside).event context]) ∧
      (follows context pictureGrammar [] (place.fill (.element tag attributes children)) = true →
        waiting = {}) := by
  have plain : kind.skipped context = false := skipped_of_isPicture picture
  intro waiting mentioned
  constructor
  · obtain ⟨filled, early, _, reported, read⟩ := (pictureView context).exists_reportedAt found plain
      named shown (fun _ _ => trivial) told
    rw [pictureView_opens_picture attributes _ picture, pictureView_traces.throughList _ alone,
      pictureView_of, pictureView_of] at read
    refine ⟨early, ?_⟩
    rw [reported, finishKind_picture _ picture, read]
  · intro following
    have outside : (ancestorsOf place).any Kind.isPicture = false := by
      have rule := follows_of_fill place named shown following
      rw [follows_element found plain, Bool.and_eq_true] at rule
      cases kind with
      | branch branch => cases picture
      | other => cases picture
      | content tag =>
          cases tag with
          | picture | legacyPicture => simpa [pictureGrammar] using rule.1
          | _ => cases picture
    exact pictureView_keeps.at_place place (fun _ => rfl) named shown following
      (fun _ _ => trivial) (told_before told) outside

/-- The relationships of a body with two images. -/
def imageContext : Context where
  target? id :=
    if id = "rId4" then some "media/preview.png"
    else if id = "rId5" then some "media/chart.png"
    else none

/-- After the preview image of an object. -/
def afterPreview : Place :=
  .inside .root (joinName wordSpace "p") []
    [wordElement .run []
      [.element (joinName wordSpace "object") []
        [wordElement .imageData
          [(joinName relationshipSpace "id", "rId4"), (joinName officeSpace "title", "Preview")]
          []]]]
    []

def emptyPicture : Tree := wordElement .legacyPicture [] []

/-- A picture without data is reported with the data of an image that stands outside pictures. -/
theorem reportedAt_emptyPicture :
    (({} : PictureData).updated (mentions imageContext everyTag [] emptyPicture)).event imageContext =
        .picture none none ∧
      reportedAt imageContext afterPreview emptyPicture
          ((afterPreview.fill emptyPicture).calls.map fun call => ({}, call)) =
        [.picture (some "media/preview.png") (some "Preview")] := by
  decide +kernel

def chart : Tree :=
  wordElement .picture []
    [wordElement .drawingProperties [("descr", "A chart")] [],
     wordElement .blip [(joinName relationshipSpace "embed", "rId5")] []]

/-- After a picture that has data. -/
def afterPicture : Place :=
  .inside .root (joinName wordSpace "p") []
    [wordElement .legacyPicture []
      [wordElement .imageData [(joinName relationshipSpace "id", "rId4")] []]]
    []

theorem reportedAt_chart :
    follows imageContext pictureGrammar [] (afterPicture.fill chart) = true ∧
      ∃ early : List Event,
        reportedAt imageContext afterPicture chart
            ((afterPicture.fill chart).calls.map fun call => ({}, call)) =
          early ++ [.picture (some "media/chart.png") (some "A chart")] := by
  have named : (afterPicture.fill chart).all Tree.isNamed = true := by
    simp [afterPicture, chart, Place.fill, wordElement, Tree.all, Tree.allOfList, Tree.isNamed]
  have shown : isShown imageContext afterPicture = true := by decide +kernel
  have found : Kind.ofTag? (joinName wordSpace Tag.picture.name) = some (.content .picture) :=
    Kind.ofTag?_wordSpace (by decide)
  have alone : followsOfList imageContext (fun _ kind => !kind.isPicture) []
      [wordElement .drawingProperties [("descr", "A chart")] [],
       wordElement .blip [(joinName relationshipSpace "embed", "rId5")] []] = true := by
    decide +kernel
  have following : follows imageContext pictureGrammar [] (afterPicture.fill chart) = true := by
    decide +kernel
  obtain ⟨⟨early, reported⟩, idle⟩ := reportedAt_picture named shown found rfl alone
    (told_of_constant {} (afterPicture.fill chart).calls)
  refine ⟨following, early, ?_⟩
  rw [idle following] at reported
  exact reported.trans (congrArg (early ++ [·]) (by decide +kernel))

end WordStream.Body

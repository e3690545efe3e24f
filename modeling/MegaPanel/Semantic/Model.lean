import MegaPanel.Basic
import MegaPanel.Lib.Run
import MegaPanel.Lib.Table
import MegaPanel.Lib.Text
import MegaPanel.Lib.UnitOfWork

set_option autoImplicit false

/-! # Semantic collections

The requests of `api/v1/semantic.py` on one collection of a project. Each reads the collection
without a lock, decides from what it has read, and writes the columns it has changed.

* An update changes `version`, so its `UPDATE` of the collection always comes, and it comes before
  the `DELETE` of the members. The row stays locked from there to the commit, and every writer of
  members is an update: the old members go and the new ones come as the update commits.
* A submission reads the collection in one statement and its members in the next one.

The rows that an update reads besides (keywords, geography, evidence and source runs of the
project) are inputs. The creation of the collection comes before.
-/

namespace MegaPanel.Semantic

open MegaPanel.Lib

abbrev KeywordId := Nat
abbrev GeoPlaceId := Nat
abbrev EvidenceId := Nat
abbrev SourceRunId := Nat
abbrev RequestId := Nat

/-! ## Bodies -/

inductive Scope
  | primary
  | serviceArea
  deriving DecidableEq

/-- `SemanticGeoBindingIn`, and the columns of `project_semantic_keyword_geo_bindings` -/
structure GeoBinding where
  projectGeoPlaceId : GeoPlaceId
  scope : Scope
  notes : Option String
  deriving DecidableEq

/-- `SemanticCollectionKeywordIn`, and the columns of `project_semantic_collection_keywords` -/
structure Member where
  projectKeywordId : KeywordId
  cluster : Option String
  intent : Option String
  priority : Option Nat
  notes : Option String
  geoBindings : List GeoBinding
  deriving DecidableEq

/-- `SemanticCollectionUpdate` -/
structure Update where
  name : String
  description : Option String
  evidenceIds : List EvidenceId
  manualSourceRunIds : List SourceRunId
  members : List Member
  version : Nat
  deriving DecidableEq

/-- The validators of the body. -/
def Update.isValid (body : Update) : Bool :=
  body.members.all (fun item => decide (item.geoBindings.map (·.projectGeoPlaceId)).Nodup)
    && decide (body.members.map (·.projectKeywordId)).Nodup
    && decide body.evidenceIds.Nodup && decide body.manualSourceRunIds.Nodup
    && decide (1 ≤ body.version)

/-- `text.strip() if text else None` -/
def stripOpt (text : Option String) : Option String :=
  text.bind (fun s => if s = "" then none else some (Text.strip s))

/-- The member that `_replace_members` inserts. -/
def Member.stored (item : Member) : Member where
  projectKeywordId := item.projectKeywordId
  cluster := stripOpt item.cluster
  intent := stripOpt item.intent
  priority := item.priority
  notes := stripOpt item.notes
  geoBindings := item.geoBindings.map (fun geo => { geo with notes := stripOpt geo.notes })

/-! ## The collection -/

inductive State
  | draft
  | review
  | approved
  | rejected
  deriving DecidableEq

/-- The reference to the evidence says `reference_only`. -/
structure SourceRefs where
  evidence : List EvidenceId
  manualSourceRunIds : List SourceRunId
  deriving DecidableEq

/-- `project_semantic_collections` -/
structure Collection where
  name : String
  description : Option String
  state : State
  version : Nat
  sourceRefs : SourceRefs
  submittedAt : Option Time
  reviewedAt : Option Time
  reviewedBy : Option UserId
  decisionReason : Option String
  deriving DecidableEq

/-- The row after a flush. -/
def Collection.flush (loaded current stored : Collection) : Collection where
  name := writeCol loaded.name current.name stored.name
  description := writeCol loaded.description current.description stored.description
  state := writeCol loaded.state current.state stored.state
  version := writeCol loaded.version current.version stored.version
  sourceRefs := writeCol loaded.sourceRefs current.sourceRefs stored.sourceRefs
  submittedAt := writeCol loaded.submittedAt current.submittedAt stored.submittedAt
  reviewedAt := writeCol loaded.reviewedAt current.reviewedAt stored.reviewedAt
  reviewedBy := writeCol loaded.reviewedBy current.reviewedBy stored.reviewedBy
  decisionReason := writeCol loaded.decisionReason current.decisionReason stored.decisionReason

/-! ## The requests -/

/-- What an update finds of the ids in its body: the keywords, the places with the question
whether their role is `reference`, the approved evidence and the recorded source runs. -/
structure UpdateContext where
  keywords : List KeywordId
  geos : List (GeoPlaceId × Bool)
  evidence : List EvidenceId
  sourceRuns : List SourceRunId

/-- `_validate_input` -/
def validateInput (body : Update) (ctx : UpdateContext) : Except HttpError SourceRefs :=
  let memberIds := (body.members.map (·.projectKeywordId)).dedup
  let geoIds := (body.members.flatMap (fun item => item.geoBindings.map (·.projectGeoPlaceId))).dedup
  if ctx.keywords.length ≠ memberIds.length then
    .error ⟨400, "Collection keywords must be selected for this project"⟩
  else if ctx.geos.length ≠ geoIds.length then
    .error ⟨400, "Semantic geography must be selected for this project"⟩
  else if ctx.geos.any (·.2) then
    .error ⟨400, "Reference geography cannot be a semantic target"⟩
  else if ctx.evidence.length ≠ body.evidenceIds.dedup.length then
    .error ⟨400, "Evidence must be approved for this project"⟩
  else if ctx.sourceRuns.length ≠ body.manualSourceRunIds.dedup.length then
    .error ⟨400, "Manual source runs must be recorded for this project"⟩
  else .ok ⟨ctx.evidence, ctx.sourceRuns⟩

/-- `update_collection`: the collection as it is changed in memory. -/
def updateCollection (collection : Collection) (body : Update) (ctx : UpdateContext) :
    Except HttpError Collection :=
  if collection.state ≠ .draft ∨ body.version ≠ collection.version then
    .error ⟨409, "Only the current draft collection can be changed"⟩
  else
    (validateInput body ctx).map (fun sourceRefs => { collection with
      name := Text.strip body.name
      description := stripOpt body.description
      sourceRefs := sourceRefs
      version := collection.version + 1 })

/-- `submit_collection`: what it checks of the collection. -/
def checkSubmittable (collection : Collection) : Except HttpError Unit :=
  if collection.state ≠ .draft then .error ⟨409, "Only draft collections can be submitted"⟩
  else .ok ()

/-- `submit_collection`, after the members have been read. -/
def submitCollection (collection : Collection) (members : List Member) (now : Time) :
    Except HttpError Collection :=
  if members = [] then .error ⟨409, "Add at least one keyword to the collection"⟩
  else .ok { collection with
    state := .review
    submittedAt := some now
    version := collection.version + 1 }

/-- `approve_collection` -/
def approveCollection (collection : Collection) (user : UserId) (reason : Option String)
    (now : Time) : Except HttpError Collection :=
  if collection.state ≠ .review then
    .error ⟨409, "Only collections under review can be approved"⟩
  else .ok { collection with
    state := .approved
    reviewedAt := some now
    reviewedBy := some user
    decisionReason := stripOpt reason }

/-- `reject_collection` -/
def rejectCollection (collection : Collection) (user : UserId) (reason : Option String)
    (now : Time) : Except HttpError Collection :=
  if reason.all (fun text => decide (Text.strip text = "")) then
    .error ⟨400, "Provide a rejection reason"⟩
  else if collection.state ≠ .review then
    .error ⟨409, "Only collections under review can be rejected"⟩
  else .ok { collection with
    state := .rejected
    reviewedAt := some now
    reviewedBy := some user
    decisionReason := reason.map Text.strip }

/-! ## Steps -/

inductive Work
  | update (current : Collection) (body : Update)
  /-- A submission that has not read the members yet. -/
  | submitting
  | submit (current : Collection)
  | decision (current : Collection)
  deriving DecidableEq

/-- A request between its read of the collection and its commit. -/
structure Pending where
  loaded : Collection
  work : Work
  deriving DecidableEq

structure World where
  collection : Collection
  members : List Member
  pending : Table RequestId Pending

inductive Request
  | update (body : Update) (ctx : UpdateContext)
  | submit
  | approve (user : UserId) (reason : Option String) (now : Time)
  | reject (user : UserId) (reason : Option String) (now : Time)

inductive Action
  | start (rid : RequestId) (request : Request)
  /-- A submission reads the members. -/
  | readMembers (rid : RequestId) (now : Time)
  | commit (rid : RequestId)
  /-- The request fails; `uq_project_semantic_collection` may be the reason. -/
  | abort (rid : RequestId)

/-- A request reads the collection and does its checks. -/
def Request.start (collection : Collection) : Request → Except HttpError Work
  | .update body ctx => (updateCollection collection body ctx).map (fun c => .update c body)
  | .submit => (checkSubmittable collection).map (fun _ => .submitting)
  | .approve user reason now => (approveCollection collection user reason now).map .decision
  | .reject user reason now => (rejectCollection collection user reason now).map .decision

def Request.isValid : Request → Bool
  | .update body _ => body.isValid
  | _ => true

def World.setPending (w : World) (rid : RequestId) (p : Pending) : World :=
  { w with pending := w.pending.set rid p }

/-- The end of a transaction. -/
def World.close (w : World) (rid : RequestId) : World := { w with pending := w.pending.erase rid }

/-- The collection and the members after the commit of a request. -/
def Pending.commit (p : Pending) (w : World) : Option (Collection × List Member) :=
  match p.work with
  | .update current body =>
    some (Collection.flush p.loaded current w.collection, body.members.map Member.stored)
  | .submitting => none
  | .submit current | .decision current =>
    some (Collection.flush p.loaded current w.collection, w.members)

def step (w : World) : Action → Option World
  | .start rid request =>
    if w.pending.get rid = none ∧ request.isValid = true then
      match request.start w.collection with
      | .ok work => some (w.setPending rid ⟨w.collection, work⟩)
      | .error _ => none
    else none
  | .readMembers rid now => (w.pending.get rid).bind (fun p =>
    match p.work, submitCollection p.loaded w.members now with
    | .submitting, .ok current => some (w.setPending rid { p with work := .submit current })
    | _, _ => none)
  | .commit rid => (w.pending.get rid).bind (fun p => (p.commit w).map (fun r =>
    World.close { w with collection := r.1, members := r.2 } rid))
  | .abort rid => (w.pending.get rid).map (fun _ => w.close rid)

/-- The world when the collection has been created. -/
structure Created (w : World) : Prop where
  state : w.collection.state = .draft
  pending : ∀ rid, w.pending.get rid = none

end MegaPanel.Semantic

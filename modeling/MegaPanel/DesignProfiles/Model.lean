import MegaPanel.Basic
import MegaPanel.Lib.Run
import MegaPanel.Lib.Table
import MegaPanel.Lib.Text
import MegaPanel.Lib.UnitOfWork

set_option autoImplicit false

/-! # Approval of design profiles

`approve_design_profile` and `reject_design_profile` (`api/v1/design_profiles.py`) beside each other,
and `resolve_design_profile` (`services/design_profiles.py`), which reads what they have written.

A decision reads its revision without a lock. An approval then writes the revision and deletes the
assignment of its scope, in one statement after the other; what a `DELETE` sees is what was committed
before it. The new assignment is inserted when the transaction commits, where the unique constraints
decide. A rejection writes the revision when it commits. The row of a revision stays locked from the
first write of an approval to its end.

`tenantOf` is the tenant of a project, which does not change. New revisions and their submission are
single steps, and whether the project is a city child is part of the action. A row of `profile` data
is known by its hash.
-/

namespace MegaPanel.DesignProfiles

open MegaPanel.Lib

abbrev RevisionId := Nat
abbrev AssignmentId := Nat
abbrev RequestId := Nat

/-! ## Rows -/

inductive Scope
  | project
  | family
  deriving DecidableEq

inductive RevisionState
  | draft
  | review
  | approved
  | rejected
  deriving DecidableEq

/-- `design_profile_revisions` -/
structure DesignProfileRevision where
  tenantId : TenantId
  projectId : ProjectId
  scope : Scope
  state : RevisionState
  profileHash : String
  reviewedAt : Option Time
  reviewedBy : Option UserId
  decisionReason : Option String
  deriving DecidableEq

/-- `design_profile_assignments` -/
structure DesignProfileAssignment where
  tenantId : TenantId
  projectId : ProjectId
  scope : Scope
  profileRevisionId : RevisionId
  assignedBy : UserId
  deriving DecidableEq

structure Db where
  revisions : Table RevisionId DesignProfileRevision
  assignments : Table AssignmentId DesignProfileAssignment

/-- The row after a flush. -/
def DesignProfileRevision.flush (loaded current stored : DesignProfileRevision) :
    DesignProfileRevision := { stored with
  state := writeCol loaded.state current.state stored.state
  reviewedAt := writeCol loaded.reviewedAt current.reviewedAt stored.reviewedAt
  reviewedBy := writeCol loaded.reviewedBy current.reviewedBy stored.reviewedBy
  decisionReason := writeCol loaded.decisionReason current.decisionReason stored.decisionReason }

/-! ## What is in force -/

/-- `_assignment_revision`; the unique constraint leaves at most one row to the join. -/
def assignmentRevision (db : Db) (tenantId : TenantId) (projectId : ProjectId) (scope : Scope) :
    Option (RevisionId × DesignProfileRevision) :=
  db.assignments.rows.findSome? (fun row =>
    let a := row.2
    if a.tenantId = tenantId ∧ a.projectId = projectId ∧ a.scope = scope then
      (db.revisions.get a.profileRevisionId).bind (fun r =>
        if r.tenantId = tenantId ∧ r.projectId = projectId ∧ r.scope = scope ∧
            r.state = .approved then some (a.profileRevisionId, r)
        else none)
    else none)

structure ResolvedDesignProfile where
  projectId : ProjectId
  inheritedFromProjectId : Option ProjectId
  familyProfile : Option (RevisionId × DesignProfileRevision)
  projectProfile : Option (RevisionId × DesignProfileRevision)
  effectiveProfileHash : Option String

/-- `resolve_design_profile`; `master` is that of the family in which the project is a child. -/
def resolveDesignProfile (db : Db) (tenantId : TenantId) (master : Option ProjectId)
    (projectId : ProjectId) : ResolvedDesignProfile :=
  let familyProfile := assignmentRevision db tenantId (master.getD projectId) .family
  let projectProfile := assignmentRevision db tenantId projectId .project
  { projectId := projectId
    inheritedFromProjectId := master
    familyProfile := familyProfile
    projectProfile := projectProfile
    effectiveProfileHash := (projectProfile.or familyProfile).map (·.2.profileHash) }

/-! ## Decisions -/

/-- The user of a request. -/
structure Caller where
  userId : UserId
  superadmin : Bool
  tenantId : Option TenantId

/-- `_project_or_404` and `_revision_or_404` -/
def revisionOr404 (tenantOf : ProjectId → TenantId) (db : Db) (caller : Caller)
    (projectId : ProjectId) (id : RevisionId) : Except HttpError DesignProfileRevision :=
  if caller.superadmin = false ∧ caller.tenantId ≠ some (tenantOf projectId) then
    .error ⟨403, "Forbidden"⟩
  else
    match db.revisions.get id with
    | none => .error ⟨404, "Design profile revision not found"⟩
    | some r =>
      if r.projectId = projectId ∧ r.tenantId = tenantOf projectId then .ok r
      else .error ⟨404, "Design profile revision not found"⟩

/-- `approve_design_profile` up to its first write: the revision as loaded and as changed. -/
def approveDesignProfile (tenantOf : ProjectId → TenantId) (db : Db) (caller : Caller)
    (projectId : ProjectId) (id : RevisionId) (isChild : Bool) (reason : Option String)
    (now : Time) : Except HttpError (DesignProfileRevision × DesignProfileRevision) :=
  match revisionOr404 tenantOf db caller projectId id with
  | .error e => .error e
  | .ok r =>
    if r.state ≠ .review then .error ⟨409, "Only reviewed design profiles can be approved"⟩
    else if r.scope = .family ∧ isChild = true then
      .error ⟨409, "Create a project override in a city child; " ++
        "family profiles belong to its master project"⟩
    else
      .ok (r, { r with
        state := .approved
        reviewedAt := some now
        reviewedBy := some caller.userId
        decisionReason := (reason.filter (fun text => decide (text ≠ ""))).map Text.strip })

/-- `reject_design_profile` up to its commit. -/
def rejectDesignProfile (tenantOf : ProjectId → TenantId) (db : Db) (caller : Caller)
    (projectId : ProjectId) (id : RevisionId) (reason : Option String) (now : Time) :
    Except HttpError (DesignProfileRevision × DesignProfileRevision) :=
  if Text.strip (reason.getD "") = "" then .error ⟨400, "Provide a rejection reason"⟩
  else
    match revisionOr404 tenantOf db caller projectId id with
    | .error e => .error e
    | .ok r =>
      if r.state ≠ .review then .error ⟨409, "Only reviewed design profiles can be rejected"⟩
      else
        .ok (r, { r with
          state := .rejected
          reviewedAt := some now
          reviewedBy := some caller.userId
          decisionReason := some (Text.strip (reason.getD "")) })

/-! ## Steps -/

/-- A decision with its copy of the revision, as loaded and as changed. -/
structure Copy where
  id : RevisionId
  user : UserId
  loaded : DesignProfileRevision
  current : DesignProfileRevision
  deriving DecidableEq

/-- A decision between two of its statements. -/
inductive Session
  | approving (c : Copy)
  /-- The revision has been written, and the assignments `doomed` have been deleted. -/
  | replaced (c : Copy) (doomed : List AssignmentId)
  | rejecting (c : Copy)
  deriving DecidableEq

structure State where
  db : Db
  sessions : Table RequestId Session

inductive Action
  | create (id : RevisionId) (projectId : ProjectId) (scope : Scope) (profileHash : String)
  | submit (id : RevisionId)
  | approve (rid : RequestId) (caller : Caller) (projectId : ProjectId) (id : RevisionId)
      (isChild : Bool) (reason : Option String) (now : Time)
  | replace (rid : RequestId)
  | commitApproval (rid : RequestId) (id : AssignmentId)
  | reject (rid : RequestId) (caller : Caller) (projectId : ProjectId) (id : RevisionId)
      (reason : Option String) (now : Time)
  | commitRejection (rid : RequestId)
  | abort (rid : RequestId)

/-- The row is one that the `DELETE` of an approval selects. -/
def DesignProfileAssignment.isOf (a : DesignProfileAssignment) (r : DesignProfileRevision) : Bool :=
  decide (a.projectId = r.projectId ∧ a.tenantId = r.tenantId ∧ a.scope = r.scope)

/-- The assignments without the deleted ones. -/
def Db.withoutDoomed (db : Db) (r : DesignProfileRevision) (doomed : List AssignmentId) :
    Table AssignmentId DesignProfileAssignment :=
  db.assignments.deleteWhere (fun id =>
    decide (id ∈ doomed) && (db.assignments.get id).any (fun a => a.isOf r))

/-- The unique constraints admit the new assignment. -/
def Db.admits (db : Db) (c : Copy) (doomed : List AssignmentId) : Bool :=
  (db.withoutDoomed c.current doomed).rows.all (fun row =>
    decide (¬ (row.2.projectId = c.current.projectId ∧ row.2.scope = c.current.scope)) &&
      decide (row.2.profileRevisionId ≠ c.id))

/-- The writes of an approval. -/
def Db.approve (db : Db) (c : Copy) (doomed : List AssignmentId) (id : AssignmentId) : Db where
  revisions := db.revisions.modify c.id (c.loaded.flush c.current)
  assignments := (db.withoutDoomed c.current doomed).set id
    { tenantId := c.current.tenantId
      projectId := c.current.projectId
      scope := c.current.scope
      profileRevisionId := c.id
      assignedBy := c.user }

/-- No other request has written the revision and not ended. -/
def State.unlocked (st : State) (rid : RequestId) (id : RevisionId) : Bool :=
  st.sessions.rows.all (fun row => decide (row.1 = rid) || match row.2 with
    | .replaced c _ => decide (c.id ≠ id)
    | _ => true)

def State.endSession (st : State) (rid : RequestId) : State :=
  { st with sessions := st.sessions.erase rid }

def step (tenantOf : ProjectId → TenantId) (st : State) : Action → Option State
  | .create id projectId scope profileHash =>
    if st.db.revisions.get id = none then
      let r : DesignProfileRevision :=
        ⟨tenantOf projectId, projectId, scope, .draft, profileHash, none, none, none⟩
      some { st with db := { st.db with revisions := st.db.revisions.set id r } }
    else none
  | .submit id => (st.db.revisions.get id).bind (fun r =>
    if r.state = .draft then
      let revisions := st.db.revisions.set id { r with state := .review }
      some { st with db := { st.db with revisions := revisions } }
    else none)
  | .approve rid caller projectId id isChild reason now =>
    match st.sessions.get rid,
        approveDesignProfile tenantOf st.db caller projectId id isChild reason now with
    | none, .ok (loaded, current) =>
      let c : Copy := ⟨id, caller.userId, loaded, current⟩
      some { st with sessions := st.sessions.set rid (.approving c) }
    | _, _ => none
  | .replace rid =>
    match st.sessions.get rid with
    | some (.approving c) =>
      if st.unlocked rid c.id = true then
        let doomed := (st.db.assignments.rows.filter (fun row => row.2.isOf c.current)).map (·.1)
        some { st with sessions := st.sessions.set rid (.replaced c doomed) }
      else none
    | _ => none
  | .commitApproval rid id =>
    match st.sessions.get rid, st.db.assignments.get id with
    | some (.replaced c doomed), none =>
      if st.db.admits c doomed = true then
        some ({ st with db := st.db.approve c doomed id }.endSession rid)
      else some (st.endSession rid)
    | _, _ => none
  | .reject rid caller projectId id reason now =>
    match st.sessions.get rid, rejectDesignProfile tenantOf st.db caller projectId id reason now with
    | none, .ok (loaded, current) =>
      let c : Copy := ⟨id, caller.userId, loaded, current⟩
      some { st with sessions := st.sessions.set rid (.rejecting c) }
    | _, _ => none
  | .commitRejection rid =>
    match st.sessions.get rid with
    | some (.rejecting c) =>
      if st.unlocked rid c.id = true then
        let revisions := st.db.revisions.modify c.id (c.loaded.flush c.current)
        some ({ st with db := { st.db with revisions := revisions } }.endSession rid)
      else none
    | _ => none
  | .abort rid => if (st.sessions.get rid).isSome then some (st.endSession rid) else none

/-- No revisions. -/
def start : State := ⟨⟨.empty, .empty⟩, .empty⟩

end MegaPanel.DesignProfiles

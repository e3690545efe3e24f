import MegaPanel.Basic
import MegaPanel.Lib.Run
import MegaPanel.Lib.Sha256
import MegaPanel.Lib.Table
import MegaPanel.Lib.Text
import MegaPanel.Lib.UnitOfWork

set_option autoImplicit false

/-! # Prompt revisions

The revisions of one prompt key of a tenant: the requests of `api/v1/prompts.py` and the lookup
`active_prompt` of `services/managed_prompts.py`. A request reads its revision without a lock and
writes the columns it has changed when it commits.

Activation and rollback clear the active revisions with one `UPDATE ... WHERE is_active`.

* The statement sees the rows that are active when it begins (`scan`). It waits for those that
  another transaction has changed, looks at them again and changes the ones that still are active
  (`clear`); these stay locked up to the commit.
* Of the objects in the session, it changes those that match in memory. So the copy of the
  revision to be activated is not active after it, and the change to `is_active` is written.

Whether a passing evaluation run is found, and whether the offline evaluation raises, are inputs of
an activation. The trigger of the table concerns columns that no request here changes.
-/

namespace MegaPanel.Prompts

open MegaPanel.Lib

abbrev RevisionId := Nat
abbrev RequestId := Nat

/-! ## Rows -/

inductive State
  | draft
  | review
  | approved
  | rejected
  | active
  | superseded
  deriving DecidableEq

/-- `prompt_registry`; `baselineHash` is the entry of `schema_json`. -/
structure Entry where
  version : Nat
  template : String
  baselineHash : Option String
  isActive : Bool
  state : State
  createdBy : Option UserId
  submittedAt : Option Time
  reviewedBy : Option UserId
  reviewedAt : Option Time
  decisionReason : Option String
  deriving DecidableEq

/-- The row after a flush: of the columns that a request can change, those it has changed. -/
def Entry.flush (loaded current stored : Entry) : Entry := { stored with
  isActive := writeCol loaded.isActive current.isActive stored.isActive
  state := writeCol loaded.state current.state stored.state
  submittedAt := writeCol loaded.submittedAt current.submittedAt stored.submittedAt
  reviewedBy := writeCol loaded.reviewedBy current.reviewedBy stored.reviewedBy
  reviewedAt := writeCol loaded.reviewedAt current.reviewedAt stored.reviewedAt
  decisionReason := writeCol loaded.decisionReason current.decisionReason stored.decisionReason }

/-- `.values(is_active=False, state="superseded")` -/
def Entry.clear (entry : Entry) : Entry := { entry with isActive := false, state := .superseded }

/-! ## The effective prompt -/

/-- `PromptAsset` -/
structure PromptAsset where
  promptId : String
  version : String
  content : String
  contentHash : String

structure EffectivePrompt where
  promptId : String
  version : String
  content : String
  contentHash : String
  baselineHash : String
  revisionId : Option RevisionId

/-- What the instructions of a revision are put between. -/
def operatorContent (baseline : PromptAsset) (template : String) : String :=
  baseline.content ++ "\n\n## Операторские инструкции\n"
    ++ "Эти инструкции уточняют задачу, но не отменяют ограничения, схему ответа, "
    ++ "проверку фактов, бюджет, human approval или server-side validation.\n\n"
    ++ template ++ "\n"

/-- `effective_prompt` -/
def effectivePrompt (baseline : PromptAsset) : Option (RevisionId × Entry) → EffectivePrompt
  | none => ⟨baseline.promptId, baseline.version, baseline.content, baseline.contentHash,
      baseline.contentHash, none⟩
  | some (id, revision) =>
    let content := operatorContent baseline revision.template
    ⟨baseline.promptId, baseline.version ++ "+operator." ++ toString revision.version, content,
      Sha256.sha256Hex content, baseline.contentHash, some id⟩

/-- The rows that are active. -/
def activeRows (entries : Table RevisionId Entry) : List (RevisionId × Entry) :=
  entries.rows.filter (fun r => r.2.isActive)

/-- `active_prompt` -/
def activePrompt (entries : Table RevisionId Entry) (baseline : PromptAsset) : EffectivePrompt :=
  let revision := (activeRows entries).argmax (fun r => r.2.version)
  effectivePrompt baseline
    (revision.filter (fun r => decide (r.2.baselineHash = some baseline.contentHash)))

/-! ## The requests -/

/-- What an activation finds besides its revision: the packaged prompt, the error of the offline
evaluation, and whether a passing run of the current prompt exists. -/
structure ActivateContext where
  baseline : Option PromptAsset
  evaluationError : Option String
  passingRun : Bool

/-- `PromptRevisionDecision.normalize_reason` -/
def normalizeReason (reason : String) : Option String :=
  let normalized := Text.strip reason
  if normalized.length < 3 then none else some normalized

/-- `submit_prompt_revision` -/
def submitRevision (entry : Entry) (now : Time) : Except HttpError Entry :=
  if entry.state ≠ .draft then .error ⟨409, "Only draft revisions can be submitted"⟩
  else .ok { entry with state := .review, submittedAt := some now }

/-- `approve_prompt_revision` -/
def approveRevision (entry : Entry) (user : UserId) (now : Time) : Except HttpError Entry :=
  if entry.state ≠ .review then .error ⟨409, "Only revisions under review can be approved"⟩
  else .ok { entry with state := .approved, reviewedBy := some user, reviewedAt := some now }

/-- `reject_prompt_revision` -/
def rejectRevision (entry : Entry) (user : UserId) (reason : String) (now : Time) :
    Except HttpError Entry :=
  if entry.state ≠ .review then .error ⟨409, "Only revisions under review can be rejected"⟩
  else .ok { entry with
    state := .rejected
    isActive := false
    reviewedBy := some user
    reviewedAt := some now
    decisionReason := some reason }

/-- The checks of `activate_prompt_revision` -/
def checkActivation (entry : Entry) (ctx : ActivateContext) : Except HttpError Unit :=
  match ctx.baseline with
  | none => .error ⟨404, "Built-in prompt not found"⟩
  | some baseline =>
    if entry.state ≠ .approved then
      .error ⟨409, "Approve the prompt revision before activation"⟩
    else if entry.baselineHash ≠ some baseline.contentHash then
      .error ⟨409, "Prompt baseline changed; create a new revision"⟩
    else
      match ctx.evaluationError with
      | some detail => .error ⟨409, detail⟩
      | none =>
        if ctx.passingRun = true then .ok ()
        else .error ⟨409,
          "Run a passing offline evaluation for the current prompt revision before activation"⟩

/-! ## Steps -/

inductive Kind
  | submit
  | approve
  | reject
  | activate
  | rollback
  deriving DecidableEq

/-- The revision of a request: as it was read, and as it is in memory now. -/
structure Own where
  id : RevisionId
  loaded : Entry
  current : Entry
  deriving DecidableEq

/-- The `UPDATE` of the active rows: what it has found, and what it has changed. -/
inductive Clearing
  | idle
  | scanned (ids : List RevisionId)
  | done (ids : List RevisionId)
  deriving DecidableEq

/-- A request between its read and its commit. -/
structure Pending where
  kind : Kind
  own : Option Own
  clearing : Clearing
  deriving DecidableEq

/-- The rows that a transaction has changed already, and has locked. -/
def Pending.cleared (p : Pending) : List RevisionId :=
  match p.clearing with
  | .done ids => ids
  | _ => []

structure World where
  entries : Table RevisionId Entry
  pending : Table RequestId Pending

inductive Request
  | submit (id : RevisionId) (now : Time)
  | approve (id : RevisionId) (user : UserId) (now : Time)
  | reject (id : RevisionId) (user : UserId) (reason : String) (now : Time)
  | activate (id : RevisionId) (ctx : ActivateContext)
  | rollback (baseline : Option PromptAsset)

inductive Action
  /-- A new draft; its version is the next one. -/
  | create (id : RevisionId) (user : UserId) (template baselineHash : String)
  | start (rid : RequestId) (request : Request)
  | scan (rid : RequestId)
  | clear (rid : RequestId)
  | commit (rid : RequestId)
  | abort (rid : RequestId)

/-- The entry that an activation has in memory after the `UPDATE`. -/
def synchronized (entry : Entry) : Entry := if entry.isActive = true then entry.clear else entry

/-- `_revision_or_404`, and a change to what it returns. -/
def withRevision (w : World) (id : RevisionId) (kind : Kind)
    (change : Entry → Except HttpError Entry) : Except HttpError Pending :=
  match w.entries.get id with
  | none => .error ⟨404, "Prompt revision not found"⟩
  | some entry => (change entry).map (fun current => ⟨kind, some ⟨id, entry, current⟩, .done []⟩)

/-- A request reads its revision and does its checks. -/
def Request.start (w : World) : Request → Except HttpError Pending
  | .submit id now => withRevision w id .submit (fun entry => submitRevision entry now)
  | .approve id user now => withRevision w id .approve (fun entry => approveRevision entry user now)
  | .reject id user reason now =>
    match normalizeReason reason with
    | none => .error ⟨422, "Provide a rejection reason"⟩
    | some reason => withRevision w id .reject (fun entry => rejectRevision entry user reason now)
  | .activate id ctx =>
    match w.entries.get id with
    | none => .error ⟨404, "Prompt revision not found"⟩
    | some entry => (checkActivation entry ctx).map (fun _ =>
      let loaded := synchronized entry
      ⟨.activate, some ⟨id, loaded, { loaded with isActive := true, state := .active }⟩, .idle⟩)
  | .rollback baseline =>
    match baseline with
    | none => .error ⟨404, "Built-in prompt not found"⟩
    | some _ => .ok ⟨.rollback, none, .idle⟩

/-- `coalesce(max(version), 0)` -/
def World.maxVersion (w : World) : Nat := (w.entries.rows.map (·.2.version)).foldl max 0

/-- Another transaction has changed the row and has not ended. -/
def World.locked (w : World) (rid : RequestId) (id : RevisionId) : Bool :=
  w.pending.rows.any (fun r => decide (r.1 ≠ rid) && decide (id ∈ r.2.cleared))

def World.isActive (w : World) (id : RevisionId) : Bool := (w.entries.get id).any (·.isActive)

def World.setPending (w : World) (rid : RequestId) (p : Pending) : World :=
  { w with pending := w.pending.set rid p }

/-- What the commit of a request makes of a row. -/
def Pending.row (p : Pending) (id : RevisionId) (entry : Entry) : Entry :=
  let entry := if id ∈ p.cleared then entry.clear else entry
  match p.own with
  | some own => if id = own.id then Entry.flush own.loaded own.current entry else entry
  | none => entry

def step (w : World) : Action → Option World
  | .create id user template baselineHash =>
    if w.entries.get id = none then
      some { w with entries := w.entries.set id ⟨w.maxVersion + 1, template, some baselineHash,
        false, .draft, some user, none, none, none, none⟩ }
    else none
  | .start rid request =>
    if w.pending.get rid = none then
      match request.start w with
      | .ok p => some (w.setPending rid p)
      | .error _ => none
    else none
  | .scan rid => (w.pending.get rid).bind (fun p =>
    if p.clearing = .idle then
      some (w.setPending rid { p with clearing := .scanned ((activeRows w.entries).map (·.1)) })
    else none)
  | .clear rid => (w.pending.get rid).bind (fun p =>
    match p.clearing with
    | .scanned ids =>
      if ids.any (fun id => w.locked rid id) = true then none
      else some (w.setPending rid { p with clearing := .done (ids.filter (w.isActive ·)) })
    | _ => none)
  | .commit rid => (w.pending.get rid).bind (fun p =>
    match p.clearing with
    | .done _ =>
      if p.own.any (fun own => w.locked rid own.id) = true then none
      else some ⟨w.entries.mapRows p.row, w.pending.erase rid⟩
    | _ => none)
  | .abort rid => (w.pending.get rid).map (fun _ => { w with pending := w.pending.erase rid })

/-- No revision has left `draft`, and no request is on its way. -/
structure Created (w : World) : Prop where
  entries : ∀ id entry, w.entries.get id = some entry →
    entry.state = .draft ∧ entry.isActive = false
  pending : ∀ rid, w.pending.get rid = none

end MegaPanel.Prompts

import MegaPanel.Basic
import MegaPanel.Lib.Run
import MegaPanel.Lib.Table

set_option autoImplicit false

/-! # Operator sessions

Refresh tokens and their families (`api/v1/auth.py`, `api/v1/security_ops.py`). A login begins a
family with one session. A refresh replaces the session of its token by a new one of the same
family. When a token is presented whose session is revoked or expired, the whole family is
revoked, as it is by a logout and by the list of sessions.

* `SELECT ... FOR UPDATE` waits for the lock of the row and keeps it until the transaction ends.
* The `UPDATE` of a family revokes the rows it sees when it begins (`startRevoke`): rows that are
  committed and not revoked by then. It locks those that are free and waits for the others. A row
  that changed while it waited is checked once more, and a row that was inserted is not seen.

A token is known by the hash of its `jti`. Whether its user is found, active and the operator of
the panel is an input. What describes a session to its user (device, address) is left out.
-/

namespace MegaPanel.Auth

open MegaPanel.Lib

abbrev SessionId := Nat
abbrev FamilyId := Nat
abbrev RequestId := Nat

/-- `auth_sessions` -/
structure AuthSession where
  userId : UserId
  refreshJtiHash : String
  familyId : FamilyId
  expiresAt : Time
  revokedAt : Option Time
  replacedById : Option SessionId
  deriving DecidableEq

/-- A request between its first read and its commit. -/
inductive Pending
  /-- A refresh that replaces the session. -/
  | rotating (id : SessionId) (session : AuthSession)
  /-- A refresh of an inactive user, which revokes the session. -/
  | dropping (id : SessionId)
  /-- The `UPDATE` of a family: the rows it saw when it began. -/
  | revoking (userId : UserId) (familyId : FamilyId) (seen : List SessionId)
  deriving DecidableEq

structure World where
  sessions : Table SessionId AuthSession
  locks : SessionId → Option RequestId
  pending : Table RequestId Pending

/-! ## Parts of the requests -/

/-- `_new_session` -/
def newSession (userId : UserId) (refreshJtiHash : String) (familyId : FamilyId)
    (expiresAt : Time) : AuthSession :=
  ⟨userId, refreshJtiHash, familyId, expiresAt, none, none⟩

/-- The row of a token. -/
def World.byToken (w : World) (refreshJtiHash : String) : Option (SessionId × AuthSession) :=
  w.sessions.rows.find? (fun r => r.2.refreshJtiHash = refreshJtiHash)

/-- A session with this id and token can be inserted. -/
def World.isNew (w : World) (id : SessionId) (refreshJtiHash : String) : Bool :=
  (w.sessions.get id).isNone && (w.byToken refreshJtiHash).isNone

def World.lock (w : World) (rid : RequestId) (id : SessionId) : World :=
  { w with locks := Function.update w.locks id (some rid) }

def World.setPending (w : World) (rid : RequestId) (p : Pending) : World :=
  { w with pending := w.pending.set rid p }

/-- The end of a transaction. -/
def World.close (w : World) (rid : RequestId) : World :=
  { w with
    locks := fun id => if w.locks id = some rid then none else w.locks id
    pending := w.pending.erase rid }

/-- The rows of a family that are not revoked. -/
def World.unrevoked (w : World) (userId : UserId) (familyId : FamilyId) : List SessionId :=
  (w.sessions.rows.filter (fun r => decide (r.2.userId = userId)
    && decide (r.2.familyId = familyId) && decide (r.2.revokedAt = none))).map (·.1)

/-- The `UPDATE` of a family begins. -/
def World.startRevoke (w : World) (rid : RequestId) (userId : UserId) (familyId : FamilyId) :
    World :=
  let seen := w.unrevoked userId familyId
  { w with
    locks := fun id => if id ∈ seen ∧ w.locks id = none then some rid else w.locks id
    pending := w.pending.set rid (.revoking userId familyId seen) }

/-- The row after the `UPDATE` of a family has checked it. -/
def revokeRow (seen : List SessionId) (now : Time) (id : SessionId) (row : AuthSession) :
    AuthSession :=
  if id ∈ seen ∧ row.revokedAt = none then { row with revokedAt := some now } else row

/-- The refresh of a session that is locked. -/
def World.refreshLocked (w : World) (rid : RequestId) (id : SessionId) (session : AuthSession)
    (userOk : Bool) (now : Time) : World :=
  if session.revokedAt ≠ none ∨ session.expiresAt ≤ now then
    w.startRevoke rid session.userId session.familyId
  else if userOk then w.setPending rid (.rotating id session)
  else w.setPending rid (.dropping id)

/-! ## Steps -/

inductive Action
  | login (id : SessionId) (userId : UserId) (refreshJtiHash : String) (expiresAt : Time)
  | refresh (rid : RequestId) (refreshJtiHash : String) (userOk : Bool) (now : Time)
  | logout (rid : RequestId) (refreshJtiHash : String)
  | revokeSession (rid : RequestId) (userId : UserId) (current target : SessionId)
  /-- The commit; the new session is that of a rotation. -/
  | commit (rid : RequestId) (id : SessionId) (refreshJtiHash : String) (expiresAt now : Time)
  | abort (rid : RequestId)

/-- The writes of a request, when no row it writes is locked by another. -/
def World.commit (w : World) (rid : RequestId) (id : SessionId) (refreshJtiHash : String)
    (expiresAt now : Time) : Pending → Option World
  | .rotating old session =>
    if w.isNew id refreshJtiHash then
      some { w with
        sessions := (w.sessions.modify old (fun row =>
          { row with revokedAt := some now, replacedById := some id })).set id
            (newSession session.userId refreshJtiHash session.familyId expiresAt) }
    else none
  | .dropping old =>
    some { w with sessions :=
      w.sessions.modify old (fun row => { row with revokedAt := some now }) }
  | .revoking _ _ seen =>
    if seen.all (fun i => (w.locks i).all (fun holder => decide (holder = rid))) then
      some { w with sessions := w.sessions.mapRows (revokeRow seen now) }
    else none

def step (w : World) : Action → Option World
  | .login id userId refreshJtiHash expiresAt =>
    if w.isNew id refreshJtiHash then
      some { w with sessions :=
        w.sessions.set id (newSession userId refreshJtiHash id expiresAt) }
    else none
  | .refresh rid refreshJtiHash userOk now =>
    match w.pending.get rid, w.byToken refreshJtiHash with
    | none, some (id, session) =>
      if w.locks id = none then
        some ((w.lock rid id).refreshLocked rid id session userOk now)
      else none
    | _, _ => none
  | .logout rid refreshJtiHash =>
    match w.pending.get rid, w.byToken refreshJtiHash with
    | none, some (_, session) => some (w.startRevoke rid session.userId session.familyId)
    | _, _ => none
  | .revokeSession rid userId current target =>
    match w.pending.get rid, w.sessions.get target with
    | none, some session =>
      if target = current ∨ session.userId ≠ userId
          ∨ (w.sessions.get current).any (fun c => decide (c.familyId = session.familyId)) = true
          ∨ w.unrevoked userId session.familyId = [] then none
      else some (w.startRevoke rid userId session.familyId)
    | _, _ => none
  | .commit rid id refreshJtiHash expiresAt now =>
    (w.pending.get rid).bind (fun p =>
      (w.commit rid id refreshJtiHash expiresAt now p).map (World.close · rid))
  | .abort rid => (w.pending.get rid).map (fun _ => w.close rid)

/-- A panel nobody has logged in to. -/
def World.empty : World := ⟨Table.empty, fun _ => none, Table.empty⟩

end MegaPanel.Auth

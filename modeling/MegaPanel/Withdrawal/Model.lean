import MegaPanel.Telemetry.Conservation

set_option autoImplicit false

/-! # Withdrawal of consent, statement by statement

The operations of `MegaPanel.Telemetry` as transactions that run at the same time. What keeps them
apart are two advisory locks: one for the digest of a session, which a collection and a withdrawal
take, and one that withdrawals and rollups take. Both are released with the transaction. Every
statement sees what has been committed before it, and the transaction's own changes.

A withdrawal and a rollup read the clock when they are entered, so before they wait for a lock. An
event has the time at which its transaction has begun. A row that is committed after a `DELETE` has
run stays, so what a transaction has seen is kept as the number of rows that there were.
-/

namespace MegaPanel.Withdrawal

open MegaPanel.Lib MegaPanel.Telemetry

abbrev SessionId := Nat

/-! ## Sessions -/

/-- The functions of the environment; `hashtext` is the one of the database. -/
structure Env where
  telemetry : Telemetry.Env
  hashtext : String → ℤ

/-- A transaction between two of its statements. -/
inductive Session
  /-- `collect_telemetry`, with the row that it is going to insert. -/
  | collecting (key : SessionKey) (row : AnalyticsEvent)
  | collectLocked (key : SessionKey) (row : AnalyticsEvent)
  | collectChecked (key : SessionKey) (row : AnalyticsEvent)
  /-- `revoke_session` -/
  | revoking (key : SessionKey) (now : Time)
  | revokeLocked (key : SessionKey) (now : Time)
  /-- Both locks are held. -/
  | revokeOpen (key : SessionKey) (now : Time)
  | revokeRead (key : SessionKey) (now : Time) (affected : List Day)
  | revokeDeleted (key : SessionKey) (now : Time) (affected : List Day) (seen : Nat)
  | revokeCounted (key : SessionKey) (now : Time) (affected : List Day) (seen : Nat)
      (aggregates : Table AggregateKey DailyAggregate)
  /-- `rollup_and_purge` -/
  | rollingUp (settings : Settings) (now : Time)
  | rollupLocked (settings : Settings) (now : Time)
  | rollupCounted (settings : Settings) (now : Time)
      (aggregates : Table AggregateKey DailyAggregate)
  | rollupPurged (settings : Settings) (now : Time)
      (aggregates : Table AggregateKey DailyAggregate) (seen : Nat)

structure World where
  db : Db
  clock : Time
  sessions : Table SessionId Session
  /-- The holders of `pg_advisory_xact_lock(_SESSION_LOCK_NAMESPACE, hashtext(digest))`. -/
  sessionLocks : Table ℤ SessionId
  /-- The holder of `pg_advisory_xact_lock(_DAILY_LOCK)`. -/
  dailyLock : Option SessionId

inductive Action
  | collect (sid : SessionId) (body : TelemetryEventIn) (site : SiteId)
  | revoke (sid : SessionId) (site : SiteId) (sessionId : String)
  | rollup (sid : SessionId) (settings : Settings)
  /-- The next statement of a transaction. -/
  | next (sid : SessionId)
  | abort (sid : SessionId)

def World.setSession (w : World) (sid : SessionId) (s : Session) : World :=
  { w with sessions := w.sessions.set sid s }

/-- The end of a transaction, and of its locks. -/
def World.endSession (w : World) (sid : SessionId) : World := { w with
  sessions := w.sessions.erase sid
  sessionLocks := w.sessionLocks.deleteWhere (fun h => decide (w.sessionLocks.get h = some sid))
  dailyLock := if w.dailyLock = some sid then none else w.dailyLock }

/-! ## Statements -/

/-- `collect_telemetry` before its lock: the session, and the row that is built for it; `none` is
the answer that there is no consent. -/
def openCollection (env : Env) (body : TelemetryEventIn)
    (site : Except HttpError (SiteId × TenantId)) (now : Time) :
    Except HttpError (Option (SessionKey × AnalyticsEvent)) :=
  if !body.consentAnalytics || body.refusesTracking then .ok none
  else if body.event ∉ allowedEvents then .error ⟨400, "Unsupported telemetry event"⟩
  else
    match normalizeTelemetryPath env.telemetry body.path with
    | none => .error ⟨400, "Telemetry path is invalid"⟩
    | some path =>
      match site with
      | .error raised => .error raised
      | .ok (siteId, tenantId) =>
        match sessionDigest env.telemetry body.sessionId with
        | none => .error ⟨400, "Invalid telemetry session"⟩
        | some digest =>
          .ok (some (⟨tenantId, siteId, digest⟩,
            { tenantId := tenantId
              siteId := some siteId
              event := body.event
              path := some path
              session := some digest
              source := .firstParty
              createdAt := now }))

/-- The rows after a `DELETE` which has seen the first `seen` of them. -/
def deleteSeen (seen : Nat) (p : AnalyticsEvent → Bool) (events : List AnalyticsEvent) :
    List AnalyticsEvent := (events.take seen).filter (fun e => !p e) ++ events.drop seen

/-- The aggregates after a withdrawal has counted the affected days again. -/
def recount (db : Db) (key : SessionKey) (now : Time) (affected : List Day)
    (events : List AnalyticsEvent) : Table AggregateKey DailyAggregate :=
  if affected = [] then db.aggregates
  else (db.aggregates.deleteWhere (fun k =>
    decide (k.tenantId = key.tenantId) && decide (k.siteId = key.siteId)
      && decide (k.eventDate ∈ affected))).insertAll
        (rollupRows db.sites (utcMidnight (day now))
          ⟨some key.tenantId, some key.siteId, some affected⟩ events)

/-- The aggregates after a rollup has counted the complete days. -/
def countComplete (db : Db) (settings : Settings) (now : Time) :
    Table AggregateKey DailyAggregate :=
  (db.aggregates.deleteWhere (fun k =>
    decide (rawCutoff settings now ≤ k.eventDate) && decide (k.eventDate < day now))).insertAll
      (rollupRows db.sites (utcMidnight (day now)) .all db.events)

/-- `lock_session`; the transaction waits while another one holds the lock. -/
def World.lockSession (env : Env) (w : World) (sid : SessionId) (digest : String) (s : Session) :
    Option World :=
  if w.sessionLocks.get (env.hashtext digest) = none then
    some { w.setSession sid s with sessionLocks := w.sessionLocks.set (env.hashtext digest) sid }
  else none

def World.lockDaily (w : World) (sid : SessionId) (s : Session) : Option World :=
  if w.dailyLock = none then some { w.setSession sid s with dailyLock := some sid } else none

/-- The next statement of a transaction; the last one commits. -/
def next (env : Env) (w : World) (sid : SessionId) : Session → Option World
  | .collecting key row => w.lockSession env sid key.sessionDigest (.collectLocked key row)
  | .collectLocked key row =>
    if sessionWasRevoked w.db key w.clock = true then some (w.endSession sid)
    else some (w.setSession sid (.collectChecked key row))
  | .collectChecked _ row =>
    some (World.endSession { w with db := { w.db with events := w.db.events ++ [row] } } sid)
  | .revoking key now => w.lockSession env sid key.sessionDigest (.revokeLocked key now)
  | .revokeLocked key now => w.lockDaily sid (.revokeOpen key now)
  | .revokeOpen key now =>
    some (w.setSession sid (.revokeRead key now (affectedDays w.db key now)))
  | .revokeRead key now affected =>
    some (w.setSession sid (.revokeDeleted key now affected w.db.events.length))
  | .revokeDeleted key now affected seen =>
    some (w.setSession sid (.revokeCounted key now affected seen
      (recount w.db key now affected (deleteSeen seen (ofSession key) w.db.events))))
  | .revokeCounted key now _ seen aggregates =>
    some (World.endSession { w with
      db := { w.db with
        events := deleteSeen seen (ofSession key) w.db.events
        aggregates := aggregates
        revoked := w.db.revoked.set key (now + days 1) } } sid)
  | .rollingUp settings now => w.lockDaily sid (.rollupLocked settings now)
  | .rollupLocked settings now =>
    some (w.setSession sid (.rollupCounted settings now (countComplete w.db settings now)))
  | .rollupCounted settings now aggregates =>
    some (w.setSession sid (.rollupPurged settings now aggregates w.db.events.length))
  | .rollupPurged settings now aggregates seen =>
    some (World.endSession { w with
      db := { w.db with
        events := deleteSeen seen
          (fun e => decide (e.createdAt < utcMidnight (rawCutoff settings now))) w.db.events
        aggregates := aggregates.deleteWhere
          (fun k => decide (k.eventDate < aggregateCutoff settings now))
        revoked := Table.empty.insertAll
          (w.db.revoked.rows.filter (fun r => decide (now < r.2))) } } sid)

/-! ## Runs -/

/-- An action at the time of `w`. -/
def perform (env : Env) (w : World) : Action → Option World
  | .collect sid body site =>
    if w.sessions.get sid = none then
      match openCollection env body (siteRow w.db site) w.clock with
      | .ok (some (key, row)) => some (w.setSession sid (.collecting key row))
      | _ => none
    else none
  | .revoke sid site sessionId =>
    if w.sessions.get sid = none then
      match siteRow w.db site, sessionDigest env.telemetry sessionId with
      | .ok (site, tenant), some digest =>
        some (w.setSession sid (.revoking ⟨tenant, site, digest⟩ w.clock))
      | _, _ => none
    else none
  | .rollup sid settings =>
    if w.sessions.get sid = none then some (w.setSession sid (.rollingUp settings w.clock))
    else none
  | .next sid => (w.sessions.get sid).bind (next env w sid)
  | .abort sid => (w.sessions.get sid).map (fun _ => w.endSession sid)

/-- An action at the time `op.2`, which is not before that of the last one. -/
def step (env : Env) (w : World) (op : Action × Time) : Option World :=
  if op.2 < w.clock then none else perform env { w with clock := op.2 } op.1

/-- No transaction is open; the tables may hold anything. -/
structure Init (w : World) : Prop where
  sessions : w.sessions = Table.empty
  sessionLocks : w.sessionLocks = Table.empty
  dailyLock : w.dailyLock = none

/-! ## Transactions that run alone -/

end MegaPanel.Withdrawal

import MegaPanel.Basic
import MegaPanel.Lib.Group
import MegaPanel.Lib.Run
import MegaPanel.Lib.Table
import MegaPanel.Lib.Url

set_option autoImplicit false

/-! # Telemetry

Events of visitors, their daily aggregates and the withdrawal of consent (`api/v1/telemetry.py`,
`services/telemetry_retention.py`). A site's pages report events. Once a day the events of
complete days are counted into aggregates, and raw events older than the raw retention are
deleted. A visitor who withdraws consent has the raw events of the session deleted and the
affected days counted again.

Each operation is one transaction: rollups and withdrawals take one advisory lock, and a
collection inserts one row. How a token finds its site is an input, and so are the keyed digest of
a session and the check of network locations in `urlsplit`.
-/

namespace MegaPanel.Telemetry

open MegaPanel.Lib

/-! ## Rows -/

/-- A UTC date, in days. -/
abbrev Day := Nat

/-- `func.date(func.timezone("UTC", ...))` -/
def day (t : Time) : Day := t / days 1

/-- `_utc_midnight` -/
def utcMidnight (d : Day) : Time := days d

inductive EventSource
  | legacy
  | firstParty
  deriving DecidableEq

/-- `analytics_events`; `session` is `payload["session"].astext`. -/
structure AnalyticsEvent where
  tenantId : TenantId
  siteId : Option SiteId
  event : String
  path : Option String
  session : Option String
  source : EventSource
  createdAt : Time
  deriving DecidableEq

/-- The primary key of `analytics_daily_aggregates`. -/
structure AggregateKey where
  tenantId : TenantId
  siteId : SiteId
  eventDate : Day
  event : String
  path : String
  deriving DecidableEq

/-- `analytics_daily_aggregates` -/
structure DailyAggregate where
  eventCount : Nat
  sessionDays : Nat
  deriving DecidableEq

/-- The primary key of `analytics_revoked_sessions`. -/
structure SessionKey where
  tenantId : TenantId
  siteId : SiteId
  sessionDigest : String
  deriving DecidableEq

/-- The tables; `sites` gives the tenant of a site, `revoked` the expiry of a marker. -/
structure Db where
  sites : SiteId → Option TenantId
  events : List AnalyticsEvent
  aggregates : Table AggregateKey DailyAggregate
  revoked : Table SessionKey Time

/-- The settings of the retention, within the bounds that are validated. -/
structure Settings where
  rawRetentionDays : Nat
  aggregateRetentionDays : Nat
  raw_bounds : 7 ≤ rawRetentionDays ∧ rawRetentionDays ≤ 90
  aggregate_bounds : 90 ≤ aggregateRetentionDays ∧ aggregateRetentionDays ≤ 730
  covers : rawRetentionDays ≤ aggregateRetentionDays

/-! ## Valid events -/

/-- `_ALLOWED_EVENTS` -/
def allowedEvents : List String :=
  ["page_view", "form_open", "form_submit_result", "cta_click", "assistant_open",
    "assistant_submit", "exit_offer_shown", "exit_offer_accepted"]

/-- The conditions on the path of a valid event. -/
def validPath (path : String) : Bool :=
  decide (path.toList.take 1 = ['/']) && decide (path.toList.length ≤ 512)
    && decide ('?' ∉ path.toList) && decide ('#' ∉ path.toList)

/-- `_valid_first_party` -/
def validFirstParty (sites : SiteId → Option TenantId) (e : AnalyticsEvent) : Bool :=
  decide (e.source = .firstParty) && e.siteId.any (fun site => decide (sites site = some e.tenantId))
    && decide (e.event ∈ allowedEvents) && e.path.any validPath

/-! ## Rollup -/

/-- The columns events are grouped by. -/
def groupKey (e : AnalyticsEvent) : Option AggregateKey :=
  match e.siteId, e.path with
  | some site, some path => some ⟨e.tenantId, site, day e.createdAt, e.event, path⟩
  | _, _ => none

def aggregateOf (rows : List AnalyticsEvent) : DailyAggregate where
  eventCount := rows.length
  sessionDays := countDistinct AnalyticsEvent.session rows

/-- What a rollup is restricted to. -/
structure RollupFilter where
  tenantId : Option TenantId
  siteId : Option SiteId
  days : Option (List Day)

def RollupFilter.all : RollupFilter := ⟨none, none, none⟩

def RollupFilter.admits (f : RollupFilter) (e : AnalyticsEvent) : Bool :=
  f.tenantId.all (fun tenant => decide (e.tenantId = tenant))
    && f.siteId.all (fun site => decide (e.siteId = some site))
    && f.days.all (fun ds => decide (day e.createdAt ∈ ds))

/-- The rows of `_rollup_statement`. -/
def rollupRows (sites : SiteId → Option TenantId) (before : Time) (f : RollupFilter)
    (events : List AnalyticsEvent) : List (AggregateKey × DailyAggregate) :=
  (groupRows groupKey (events.filter (fun e =>
    validFirstParty sites e && decide (e.createdAt < before) && f.admits e))).map
      (fun g => (g.1, aggregateOf g.2))

/-- The result of `rollup_and_purge`. -/
structure Rollup where
  rawDeleted : Nat
  rawRetentionDays : Nat

/-- The day before which raw events are deleted. -/
def rawCutoff (settings : Settings) (now : Time) : Day := day now - settings.rawRetentionDays

/-- The day before which aggregates are deleted. -/
def aggregateCutoff (settings : Settings) (now : Time) : Day :=
  day now - settings.aggregateRetentionDays

def rollupAndPurge (db : Db) (settings : Settings) (now : Time) : Db × Rollup :=
  let today := day now
  let cutoff := rawCutoff settings now
  -- only days that still have raw events are counted again
  let final := db.aggregates.deleteWhere
    (fun k => decide (cutoff ≤ k.eventDate) && decide (k.eventDate < today))
  let counted := final.insertAll (rollupRows db.sites (utcMidnight today) .all db.events)
  ({ db with
      events := db.events.filter (fun e => !decide (e.createdAt < utcMidnight cutoff))
      aggregates := counted.deleteWhere
        (fun k => decide (k.eventDate < aggregateCutoff settings now))
      revoked := Table.empty.insertAll (db.revoked.rows.filter (fun r => decide (now < r.2))) },
    { rawDeleted := db.events.countP (fun e => decide (e.createdAt < utcMidnight cutoff))
      rawRetentionDays := settings.rawRetentionDays })

/-! ## Collection -/

/-- `TelemetryEventIn`, with the two headers that refuse tracking. -/
structure TelemetryEventIn where
  event : String
  path : String
  sessionId : String
  consentAnalytics : Bool
  refusesTracking : Bool

inductive CollectAnswer
  | ok
  | noConsent
  | consentWithdrawn
  deriving DecidableEq

/-- The functions of the environment: the keyed digest of a session, and the checks of a network
location in `urlsplit`. -/
structure Env where
  hmac : String → String
  netlocValid : List Char → Bool

/-- `normalize_telemetry_path`; a `ValueError` of `urlsplit` ends the request like a refusal. -/
def normalizeTelemetryPath (env : Env) (value : String) : Option String :=
  if value.length = 0 ∨ 512 < value.length then none
  else
    (Url.urlsplit env.netlocValid value.toList).bind (fun parsed =>
      if parsed.scheme ≠ [] ∨ parsed.netloc ≠ [] ∨ parsed.query ≠ [] ∨ parsed.fragment ≠ []
          ∨ parsed.path.take 1 ≠ ['/'] then none
      else some (String.ofList parsed.path))

/-- `session_digest` -/
def sessionDigest (env : Env) (value : String) : Option String :=
  if value.length < 16 ∨ 128 < value.length then none else some (env.hmac value)

/-- `session_was_revoked` -/
def sessionWasRevoked (db : Db) (key : SessionKey) (now : Time) : Bool :=
  (db.revoked.get key).any (fun expiresAt => decide (now < expiresAt))

/-- `collect_telemetry`; `site` is the site and tenant that `_site_from_public_token` has found. -/
def collectTelemetry (env : Env) (db : Db) (body : TelemetryEventIn)
    (site : Except HttpError (SiteId × TenantId)) (now : Time) :
    Except HttpError (Db × CollectAnswer) :=
  if !body.consentAnalytics || body.refusesTracking then .ok (db, .noConsent)
  else if body.event ∉ allowedEvents then .error ⟨400, "Unsupported telemetry event"⟩
  else
    match normalizeTelemetryPath env body.path with
    | none => .error ⟨400, "Telemetry path is invalid"⟩
    | some path =>
      match site with
      | .error raised => .error raised
      | .ok (siteId, tenantId) =>
        match sessionDigest env body.sessionId with
        | none => .error ⟨400, "Invalid telemetry session"⟩
        | some digest =>
          if sessionWasRevoked db ⟨tenantId, siteId, digest⟩ now then
            .ok (db, .consentWithdrawn)
          else
            .ok ({ db with
              events := db.events ++
                [{ tenantId := tenantId
                   siteId := some siteId
                   event := body.event
                   path := some path
                   session := some digest
                   source := .firstParty
                   createdAt := now }] }, .ok)

/-- `collect_event` of the older pixel, which stores what it is given (`api/v1/analytics.py`). -/
def collectEvent (db : Db) (consentAnalytics : Bool) (tenantId : TenantId) (siteId : Option SiteId)
    (event : String) (path session : Option String) (now : Time) : Db :=
  if consentAnalytics then
    { db with
      events := db.events ++
        [{ tenantId := tenantId
           siteId := siteId
           event := event
           path := path
           session := session
           source := .legacy
           createdAt := now }] }
  else db

/-! ## Withdrawal -/

/-- The raw events of a session. -/
def ofSession (key : SessionKey) (e : AnalyticsEvent) : Bool :=
  decide (e.tenantId = key.tenantId) && decide (e.siteId = some key.siteId)
    && decide (e.source = .firstParty) && decide (e.session = some key.sessionDigest)

/-- The complete days on which the session has raw events. -/
def affectedDays (db : Db) (key : SessionKey) (now : Time) : List Day :=
  ((db.events.filter (fun e =>
    ofSession key e && decide (e.createdAt < utcMidnight (day now)))).map
      (fun e => day e.createdAt)).dedup

def revokeSession (db : Db) (key : SessionKey) (now : Time) : Db × Nat :=
  let affected := affectedDays db key now
  let events := db.events.filter (fun e => !ofSession key e)
  let final := db.aggregates.deleteWhere (fun k =>
    decide (k.tenantId = key.tenantId) && decide (k.siteId = key.siteId)
      && decide (k.eventDate ∈ affected))
  ({ db with
      events := events
      aggregates :=
        if affected = [] then db.aggregates
        else final.insertAll (rollupRows db.sites (utcMidnight (day now))
          ⟨some key.tenantId, some key.siteId, some affected⟩ events)
      revoked := db.revoked.set key (now + days 1) },
    db.events.countP (ofSession key))

/-! ## Runs -/

inductive Action
  | collect (body : TelemetryEventIn) (site : SiteId)
  | collectLegacy (consentAnalytics : Bool) (tenantId : TenantId) (siteId : Option SiteId)
      (event : String) (path session : Option String)
  | rollup (settings : Settings)
  | revoke (site : SiteId) (sessionId : String)

structure World where
  db : Db
  clock : Time

/-- The site of a token that is in order. -/
def siteRow (db : Db) (site : SiteId) : Except HttpError (SiteId × TenantId) :=
  match db.sites site with
  | some tenant => .ok (site, tenant)
  | none => .error ⟨404, "Telemetry site not found"⟩

/-- One operation at the time `now`, which is not before the time of the last one. A request that
is answered with an error changes nothing. -/
def step (env : Env) (w : World) (op : Action × Time) : Option World :=
  let now := op.2
  if now < w.clock then none
  else
    match op.1 with
    | .collect body site =>
      (collectTelemetry env w.db body (siteRow w.db site) now).toOption.map (⟨·.1, now⟩)
    | .collectLegacy consent tenant site event path session =>
      some ⟨collectEvent w.db consent tenant site event path session now, now⟩
    | .rollup settings => some ⟨(rollupAndPurge w.db settings now).1, now⟩
    | .revoke site sessionId =>
      match siteRow w.db site, sessionDigest env sessionId with
      | .ok (site, tenant), some digest =>
        some ⟨(revokeSession w.db ⟨tenant, site, digest⟩ now).1, now⟩
      | _, _ => none

end MegaPanel.Telemetry

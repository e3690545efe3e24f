import MegaPanel.Withdrawal.Model

set_option autoImplicit false

/-! # A withdrawal is final

The history has the last withdrawal of one session. While its marker stands, a collection of the
session finds it, because it takes the same lock, and nobody deletes it: so no raw event of the
session comes back. The days that were complete when the withdrawal read the clock have been counted
again, and stay counted until their raw events are purged (`withdrawal_final`).

Two things end this earlier than one may expect. A rollup purges raw events and keeps what it has
counted. And a withdrawal that waits for its locks over midnight deletes the events of a day that
has become complete meanwhile, and does not count that day again.
-/

namespace MegaPanel.Withdrawal

open MegaPanel.Lib MegaPanel.Telemetry

variable {env : Env} {key : SessionKey}

/-! ## What is counted -/

variable {sites : SiteId → Option TenantId} {d : Day} {e : AnalyticsEvent}
  {xs ys added events : List AnalyticsEvent} {aggregates : Table AggregateKey DailyAggregate}
  {seen : Nat} {p : AnalyticsEvent → Bool}

/-- What a rollup makes of the events for one aggregate. -/
def aggregateAt (sites : SiteId → Option TenantId) (k : AggregateKey)
    (events : List AnalyticsEvent) : Option DailyAggregate :=
  if 0 < countKey sites k events then some (aggregateOf (members sites k events)) else none

/-- The aggregates of the site of `key` for the day are those of the events. -/
def Matches (key : SessionKey) (sites : SiteId → Option TenantId)
    (aggregates : Table AggregateKey DailyAggregate) (events : List AnalyticsEvent) (d : Day) :
    Prop :=
  ∀ event path, aggregates.get ⟨key.tenantId, key.siteId, d, event, path⟩
    = aggregateAt sites ⟨key.tenantId, key.siteId, d, event, path⟩ events

/-- An event of the site of `key` on the day. -/
def InDay (key : SessionKey) (d : Day) (e : AnalyticsEvent) : Prop :=
  e.tenantId = key.tenantId ∧ e.siteId = some key.siteId ∧ day e.createdAt = d

theorem isMember_inDay {event path : String}
    (h : isMember sites ⟨key.tenantId, key.siteId, d, event, path⟩ e = true) : InDay key d e := by
  have hkey := of_decide_eq_true (Bool.and_eq_true_iff.mp h).2
  exact groupKey_eq_some hkey

theorem aggregateAt_congr {k : AggregateKey} (h : members sites k xs = members sites k ys) :
    aggregateAt sites k xs = aggregateAt sites k ys := by
  rw [aggregateAt, aggregateAt, ← members_length, ← members_length, h]

/-- Only the events of the day count. -/
theorem Matches.congr (h : Matches key sites aggregates xs d)
    (heq : ∀ event path, members sites ⟨key.tenantId, key.siteId, d, event, path⟩ ys
      = members sites ⟨key.tenantId, key.siteId, d, event, path⟩ xs) :
    Matches key sites aggregates ys d :=
  fun event path => (h event path).trans (aggregateAt_congr (heq event path).symm)

theorem members_append_of_not_inDay (h : ∀ e ∈ added, ¬ InDay key d e) (event path : String) :
    members sites ⟨key.tenantId, key.siteId, d, event, path⟩ (xs ++ added)
      = members sites ⟨key.tenantId, key.siteId, d, event, path⟩ xs := by
  have hnone : members sites ⟨key.tenantId, key.siteId, d, event, path⟩ added = [] :=
    List.filter_eq_nil_iff.mpr (fun e he hmember => h e he (isMember_inDay hmember))
  rw [members, List.filter_append]
  exact (congrArg _ hnone).trans (List.append_nil _)

/-- A `DELETE` that leaves the events of the day. -/
theorem members_deleteSeen {sites : SiteId → Option TenantId} {events : List AnalyticsEvent}
    {p : AnalyticsEvent → Bool} {d : Day} (seen : Nat)
    (h : ∀ e ∈ events, InDay key d e → p e = false) (event path : String) :
    members sites ⟨key.tenantId, key.siteId, d, event, path⟩ (deleteSeen seen p events)
      = members sites ⟨key.tenantId, key.siteId, d, event, path⟩ events := by
  have hkept : members sites ⟨key.tenantId, key.siteId, d, event, path⟩
      ((events.take seen).filter (fun e => !p e))
        = members sites ⟨key.tenantId, key.siteId, d, event, path⟩ (events.take seen) := by
    rw [members, List.filter_filter]
    refine List.filter_congr (fun e he => ?_)
    cases hmember : isMember sites ⟨key.tenantId, key.siteId, d, event, path⟩ e with
    | false => rfl
    | true => rw [h e (List.mem_of_mem_take he) (isMember_inDay hmember)]; rfl
  calc members sites _ (deleteSeen seen p events)
      = members sites _ ((events.take seen).filter (fun e => !p e))
          ++ members sites _ (events.drop seen) := List.filter_append ..
    _ = members sites _ (events.take seen) ++ members sites _ (events.drop seen) := by rw [hkept]
    _ = members sites _ (events.take seen ++ events.drop seen) := (List.filter_append ..).symm
    _ = members sites _ events := by rw [List.take_append_drop]

theorem deleteSeen_append (h : seen ≤ events.length) (added : List AnalyticsEvent) :
    deleteSeen seen p (events ++ added) = deleteSeen seen p events ++ added := by
  rw [deleteSeen, deleteSeen, List.take_append_of_le_length h, List.drop_append_of_le_length h,
    List.append_assoc]

/-! ## The history -/

/-- The last withdrawal: the time it has read, the days of the rows it has deleted, and the day
before which raw events have been purged since. -/
structure Revocation where
  now : Time
  days : List Day
  purged : Day

abbrev History := Option Revocation

def History.add (key : SessionKey) (w : World) (g : History) : Session → History
  | .revokeCounted k now _ seen _ =>
    if k = key then
      some ⟨now, ((w.db.events.take seen).filter (ofSession key)).map (fun e => day e.createdAt),
        0⟩
    else g
  | .rollupPurged settings now _ _ =>
    g.map (fun r => { r with purged := max r.purged (rawCutoff settings now) })
  | _ => g

def note (key : SessionKey) (w : World) (op : Action × Time) (g : History) : History :=
  match op.1 with
  | .next sid => (w.sessions.get sid).elim g (g.add key w)
  | _ => g

/-- The marker stands, and there is no raw event of the session. -/
def Forgotten (key : SessionKey) (w : World) (r : Revocation) : Prop :=
  w.db.revoked.get key = some (r.now + days 1) ∧ ∀ e ∈ w.db.events, ofSession key e = false

/-- A day that the last withdrawal has counted again, and whose raw events are there. -/
def Settled (g : History) (clock : Time) (d : Day) : Prop :=
  ∃ r, g = some r ∧ clock < r.now + days 1 ∧ d ∈ r.days ∧ d < day r.now ∧ r.purged ≤ d

variable {g : History}

theorem Settled.mono {s t : Time} (hle : s ≤ t) (h : Settled g t d) : Settled g s d := by
  obtain ⟨r, hr, hlt, hd⟩ := h
  exact ⟨r, hr, hle.trans_lt hlt, hd⟩

/-- The requests of other sessions: a collection is committed on the day on which it has begun, and
a withdrawal on that on which it has read the clock. -/
def timely (key : SessionKey) (w : World) (op : Action × Time) : Bool :=
  match op.1 with
  | .next sid =>
    match w.sessions.get sid with
    | some (.collectChecked k row) =>
      decide (k.sessionDigest = key.sessionDigest) || decide (day row.createdAt = day op.2)
    | some (.revokeCounted k now _ _ _) =>
      decide (k.sessionDigest = key.sessionDigest) || decide (day now = day op.2)
    | _ => true
  | _ => true

/-! ## Transactions in flight -/

variable {w t : World} {k : SessionKey} {now : Time} {affected : List Day} {g' : History}
  {sid : SessionId} {s : Session}

/-- The transaction holds the lock of the session. -/
def Holds (env : Env) (w : World) (sid : SessionId) (digest : String) : Prop :=
  w.sessionLocks.get (env.hashtext digest) = some sid

/-- A withdrawal that has both locks. -/
structure Revoking (env : Env) (w : World) (sid : SessionId) (k : SessionKey) (now : Time) :
    Prop where
  past : now ≤ w.clock
  session : Holds env w sid k.sessionDigest
  daily : w.dailyLock = some sid

/-- The days that the withdrawal has read are those on which it will delete events. -/
structure HasRead (w : World) (k : SessionKey) (now : Time) (affected : List Day) : Prop where
  all : ∀ e ∈ w.db.events, ofSession k e = true → day e.createdAt < day now →
    day e.createdAt ∈ affected
  complete : ∀ d ∈ affected, d < day now

/-- It has seen all the events of its session. -/
structure HasDeleted (w : World) (k : SessionKey) (seen : Nat) : Prop where
  le : seen ≤ w.db.events.length
  rest : ∀ e ∈ w.db.events.drop seen, ofSession k e = false

/-- What is known of a transaction between two of its statements. -/
inductive InFlight (env : Env) (key : SessionKey) (w : World) (g : History) (sid : SessionId) :
    Session → Prop
  | collecting (k : SessionKey) (row : AnalyticsEvent) (hrow : ofSession k row = true) :
      InFlight env key w g sid (.collecting k row)
  | collectLocked (k : SessionKey) (row : AnalyticsEvent) (hrow : ofSession k row = true)
      (hlock : Holds env w sid k.sessionDigest) :
      InFlight env key w g sid (.collectLocked k row)
  | collectChecked (k : SessionKey) (row : AnalyticsEvent) (hrow : ofSession k row = true)
      (hlock : Holds env w sid k.sessionDigest)
      (hfree : k = key → ∀ r, g = some r → r.now + days 1 ≤ w.clock) :
      InFlight env key w g sid (.collectChecked k row)
  | revoking (k : SessionKey) (now : Time) (hpast : now ≤ w.clock) :
      InFlight env key w g sid (.revoking k now)
  | revokeLocked (k : SessionKey) (now : Time) (hpast : now ≤ w.clock)
      (hlock : Holds env w sid k.sessionDigest) : InFlight env key w g sid (.revokeLocked k now)
  | revokeOpen (k : SessionKey) (now : Time) (hopen : Revoking env w sid k now) :
      InFlight env key w g sid (.revokeOpen k now)
  | revokeRead (k : SessionKey) (now : Time) (affected : List Day)
      (hopen : Revoking env w sid k now) (hread : HasRead w k now affected) :
      InFlight env key w g sid (.revokeRead k now affected)
  | revokeDeleted (k : SessionKey) (now : Time) (affected : List Day) (seen : Nat)
      (hopen : Revoking env w sid k now) (hread : HasRead w k now affected)
      (hdeleted : HasDeleted w k seen) :
      InFlight env key w g sid (.revokeDeleted k now affected seen)
  | revokeCounted (k : SessionKey) (now : Time) (affected : List Day) (seen : Nat)
      (aggregates : Table AggregateKey DailyAggregate)
      (hopen : Revoking env w sid k now) (hread : HasRead w k now affected)
      (hdeleted : HasDeleted w k seen)
      (hown : k = key → ∀ d ∈ affected,
        Matches key w.db.sites aggregates (deleteSeen seen (ofSession k) w.db.events) d)
      (hsettled : ∀ d, Settled g w.clock d → d < day now ∨ k.sessionDigest = key.sessionDigest →
        Matches key w.db.sites aggregates (deleteSeen seen (ofSession k) w.db.events) d) :
      InFlight env key w g sid (.revokeCounted k now affected seen aggregates)
  | rollingUp (settings : Settings) (now : Time) (hpast : now ≤ w.clock) :
      InFlight env key w g sid (.rollingUp settings now)
  | rollupLocked (settings : Settings) (now : Time) (hpast : now ≤ w.clock)
      (hdaily : w.dailyLock = some sid) : InFlight env key w g sid (.rollupLocked settings now)
  | rollupCounted (settings : Settings) (now : Time)
      (aggregates : Table AggregateKey DailyAggregate) (hpast : now ≤ w.clock)
      (hdaily : w.dailyLock = some sid)
      (hsettled : ∀ d, Settled g w.clock d → rawCutoff settings now ≤ d →
        Matches key w.db.sites aggregates w.db.events d) :
      InFlight env key w g sid (.rollupCounted settings now aggregates)
  | rollupPurged (settings : Settings) (now : Time)
      (aggregates : Table AggregateKey DailyAggregate) (seen : Nat) (hpast : now ≤ w.clock)
      (hdaily : w.dailyLock = some sid) (hle : seen ≤ w.db.events.length)
      (hsettled : ∀ d, Settled g w.clock d → rawCutoff settings now ≤ d →
        Matches key w.db.sites aggregates w.db.events d) :
      InFlight env key w g sid (.rollupPurged settings now aggregates seen)

/-- An event that a collection adds while the transaction `sid` is open. -/
structure Harmless (env : Env) (key : SessionKey) (w : World) (g : History) (sid : SessionId)
    (e : AnalyticsEvent) : Prop where
  foreign : ∀ k : SessionKey, Holds env w sid k.sessionDigest → ofSession k e = false
  settled : ∀ d, Settled g w.clock d → ¬ InDay key d e
  present : Holds env w sid key.sessionDigest → ∀ d, d < day w.clock → ¬ InDay key d e

/-- What the step of another transaction leaves. -/
structure Frame (env : Env) (key : SessionKey) (w t : World) (g g' : History) (sid : SessionId) :
    Prop where
  locks : ∀ digest, Holds env w sid digest → Holds env t sid digest
  marker : Holds env w sid key.sessionDigest → ∀ r, g' = some r → ∃ r₀, g = some r₀ ∧ r.now = r₀.now
  daily : w.dailyLock = some sid → t.dailyLock = some sid ∧ g' = g ∧
    ∃ added, t.db.events = w.db.events ++ added ∧ ∀ e ∈ added, Harmless env key w g sid e

theorem HasRead.append (h : HasRead w k now affected) (hevents : t.db.events = w.db.events ++ added)
    (hnew : ∀ e ∈ added, ofSession k e = false) : HasRead t k now affected where
  all := by
    intro e he hof
    rw [hevents] at he
    rcases List.mem_append.mp he with hold | hadd
    · exact h.all e hold hof
    · rw [hnew e hadd] at hof
      cases hof
  complete := h.complete

theorem HasDeleted.append (h : HasDeleted w k seen) (hevents : t.db.events = w.db.events ++ added)
    (hnew : ∀ e ∈ added, ofSession k e = false) : HasDeleted t k seen where
  le := by
    rw [hevents, List.length_append]
    exact h.le.trans (Nat.le_add_right _ _)
  rest := by
    intro e he
    rw [hevents, List.drop_append_of_le_length h.le] at he
    exact (List.mem_append.mp he).elim (h.rest e) (hnew e)

theorem InFlight.frame (h : InFlight env key w g sid s) (hclock : t.clock = w.clock)
    (hsites : t.db.sites = w.db.sites) (hframe : Frame env key w t g g' sid) :
    InFlight env key t g' sid s := by
  have hopen' : ∀ {k now}, Revoking env w sid k now → Revoking env t sid k now := fun hopen =>
    ⟨hclock ▸ hopen.past, hframe.locks _ hopen.session, (hframe.daily hopen.daily).1⟩
  cases h with
  | collecting k row hrow => exact .collecting k row hrow
  | collectLocked k row hrow hlock => exact .collectLocked k row hrow (hframe.locks _ hlock)
  | collectChecked k row hrow hlock hfree =>
    refine .collectChecked k row hrow (hframe.locks _ hlock) (fun hk r hr => ?_)
    obtain ⟨r₀, hr₀, hnow⟩ := hframe.marker (hk ▸ hlock) r hr
    rw [hclock, hnow]
    exact hfree hk r₀ hr₀
  | revoking k now hpast => exact .revoking k now (hclock ▸ hpast)
  | revokeLocked k now hpast hlock =>
    exact .revokeLocked k now (hclock ▸ hpast) (hframe.locks _ hlock)
  | revokeOpen k now hopen => exact .revokeOpen k now (hopen' hopen)
  | revokeRead k now affected hopen hread =>
    obtain ⟨_, _, added, hevents, hadd⟩ := hframe.daily hopen.daily
    exact .revokeRead k now affected (hopen' hopen)
      (hread.append hevents (fun e he => (hadd e he).foreign k hopen.session))
  | revokeDeleted k now affected seen hopen hread hdeleted =>
    obtain ⟨_, _, added, hevents, hadd⟩ := hframe.daily hopen.daily
    have hnew := fun e he => (hadd e he).foreign k hopen.session
    exact .revokeDeleted k now affected seen (hopen' hopen) (hread.append hevents hnew)
      (hdeleted.append hevents hnew)
  | revokeCounted k now affected seen aggregates hopen hread hdeleted hown hsettled =>
    obtain ⟨_, hg, added, hevents, hadd⟩ := hframe.daily hopen.daily
    have hnew := fun e he => (hadd e he).foreign k hopen.session
    refine .revokeCounted k now affected seen aggregates (hopen' hopen)
      (hread.append hevents hnew) (hdeleted.append hevents hnew) (fun hk d hd => ?_)
      (fun d hd hor => ?_)
    · rw [hsites, hevents, deleteSeen_append hdeleted.le]
      refine (hown hk d hd).congr (members_append_of_not_inDay (fun e he => ?_))
      exact (hadd e he).present (hk ▸ hopen.session) d
        ((hread.complete d hd).trans_le (day_mono hopen.past))
    · rw [hg, hclock] at hd
      rw [hsites, hevents, deleteSeen_append hdeleted.le]
      exact (hsettled d hd hor).congr
        (members_append_of_not_inDay (fun e he => (hadd e he).settled d hd))
  | rollingUp settings now hpast => exact .rollingUp settings now (hclock ▸ hpast)
  | rollupLocked settings now hpast hdaily =>
    exact .rollupLocked settings now (hclock ▸ hpast) (hframe.daily hdaily).1
  | rollupCounted settings now aggregates hpast hdaily hsettled =>
    obtain ⟨hlock, hg, added, hevents, hadd⟩ := hframe.daily hdaily
    refine .rollupCounted settings now aggregates (hclock ▸ hpast) hlock (fun d hd hcut => ?_)
    rw [hg, hclock] at hd
    rw [hsites, hevents]
    exact (hsettled d hd hcut).congr
      (members_append_of_not_inDay (fun e he => (hadd e he).settled d hd))
  | rollupPurged settings now aggregates seen hpast hdaily hle hsettled =>
    obtain ⟨hlock, hg, added, hevents, hadd⟩ := hframe.daily hdaily
    refine .rollupPurged settings now aggregates seen (hclock ▸ hpast) hlock ?_ (fun d hd hcut => ?_)
    · rw [hevents, List.length_append]
      exact hle.trans (Nat.le_add_right _ _)
    · rw [hg, hclock] at hd
      rw [hsites, hevents]
      exact (hsettled d hd hcut).congr
        (members_append_of_not_inDay (fun e he => (hadd e he).settled d hd))

/-- Time passes. -/
theorem InFlight.tick (h : InFlight env key w g sid s) (hle : w.clock ≤ now) :
    InFlight env key { w with clock := now } g sid s := by
  have hopen' : ∀ {k n}, Revoking env w sid k n → Revoking env { w with clock := now } sid k n :=
    fun hopen => ⟨hopen.past.trans hle, hopen.session, hopen.daily⟩
  cases h with
  | collecting k row hrow => exact .collecting k row hrow
  | collectLocked k row hrow hlock => exact .collectLocked k row hrow hlock
  | collectChecked k row hrow hlock hfree =>
    exact .collectChecked k row hrow hlock (fun hk r hr => (hfree hk r hr).trans hle)
  | revoking k n hpast => exact .revoking k n (hpast.trans hle)
  | revokeLocked k n hpast hlock => exact .revokeLocked k n (hpast.trans hle) hlock
  | revokeOpen k n hopen => exact .revokeOpen k n (hopen' hopen)
  | revokeRead k n affected hopen hread =>
    exact .revokeRead k n affected (hopen' hopen) ⟨hread.all, hread.complete⟩
  | revokeDeleted k n affected seen hopen hread hdeleted =>
    exact .revokeDeleted k n affected seen (hopen' hopen) ⟨hread.all, hread.complete⟩
      ⟨hdeleted.le, hdeleted.rest⟩
  | revokeCounted k n affected seen aggregates hopen hread hdeleted hown hsettled =>
    exact .revokeCounted k n affected seen aggregates (hopen' hopen)
      ⟨hread.all, hread.complete⟩ ⟨hdeleted.le, hdeleted.rest⟩ hown
      (fun d hd => hsettled d (hd.mono hle))
  | rollingUp settings n hpast => exact .rollingUp settings n (hpast.trans hle)
  | rollupLocked settings n hpast hdaily =>
    exact .rollupLocked settings n (hpast.trans hle) hdaily
  | rollupCounted settings n aggregates hpast hdaily hsettled =>
    exact .rollupCounted settings n aggregates (hpast.trans hle) hdaily
      (fun d hd => hsettled d (hd.mono hle))
  | rollupPurged settings n aggregates seen hpast hdaily hlen hsettled =>
    exact .rollupPurged settings n aggregates seen (hpast.trans hle) hdaily hlen
      (fun d hd => hsettled d (hd.mono hle))

/-! ## The invariant -/

variable {other : SessionId}

structure Sound (env : Env) (key : SessionKey) (w : World) (g : History) : Prop where
  past : ∀ r, g = some r → r.now ≤ w.clock
  forgotten : ∀ r, g = some r → w.clock < r.now + days 1 → Forgotten key w r
  counted : ∀ d, Settled g w.clock d → Matches key w.db.sites w.db.aggregates w.db.events d
  flight : ∀ sid s, w.sessions.get sid = some s → InFlight env key w g sid s

theorem Init.sound (h : Init w) : Sound env key w none where
  past := fun _ hr => by cases hr
  forgotten := fun _ hr => by cases hr
  counted := fun _ hd => by obtain ⟨_, hr, _⟩ := hd; cases hr
  flight := fun sid s hs => by
    rw [h.sessions] at hs
    cases hs

theorem Sound.tick (hs : Sound env key w g) (hle : w.clock ≤ now) :
    Sound env key { w with clock := now } g where
  past := fun r hr => (hs.past r hr).trans hle
  forgotten := fun r hr hlt => hs.forgotten r hr (hle.trans_lt hlt)
  counted := fun d hd => hs.counted d (hd.mono hle)
  flight := fun sid s hget => (hs.flight sid s hget).tick hle

/-- A day of the history is before today. -/
theorem Sound.settled_lt (hs : Sound env key w g) (hd : Settled g w.clock d) : d < day w.clock := by
  obtain ⟨r, hr, _, _, hlt, _⟩ := hd
  exact hlt.trans_le (day_mono (hs.past r hr))

/-- While a day is settled the session has no raw events. -/
theorem Sound.none_of_settled (hs : Sound env key w g) (hd : Settled g w.clock d) :
    ∀ e ∈ w.db.events, ofSession key e = false := by
  obtain ⟨r, hr, hlt, _⟩ := hd
  exact (hs.forgotten r hr hlt).2

/-- A step of the transaction `sid`, and what it has to show. -/
structure Advance (env : Env) (key : SessionKey) (w t : World) (g g' : History) (sid : SessionId) :
    Prop where
  clock : t.clock = w.clock
  sites : t.db.sites = w.db.sites
  others : ∀ other s, other ≠ sid → t.sessions.get other = some s → w.sessions.get other = some s
  frame : ∀ other, other ≠ sid → Frame env key w t g g' other
  self : ∀ s, t.sessions.get sid = some s → InFlight env key t g' sid s

theorem Sound.flight_advance (sid : SessionId) (hs : Sound env key w g)
    (h : Advance env key w t g g' sid) (other : SessionId) (s : Session)
    (hget : t.sessions.get other = some s) : InFlight env key t g' other s := by
  by_cases heq : other = sid
  · subst heq
    exact h.self s hget
  · exact (hs.flight other s (h.others other s heq hget)).frame h.clock h.sites
      (h.frame other heq)

/-- A step that changes no table. -/
theorem Sound.advance (sid : SessionId) (hs : Sound env key w g) (hdb : t.db = w.db)
    (h : Advance env key w t g g sid) : Sound env key t g where
  past := fun r hr => h.clock ▸ hs.past r hr
  forgotten := by
    intro r hr hlt
    rw [h.clock] at hlt
    rw [Forgotten, hdb]
    exact hs.forgotten r hr hlt
  counted := by
    intro d hd
    rw [h.clock] at hd
    rw [hdb]
    exact hs.counted d hd
  flight := hs.flight_advance sid h

/-- A step that changes no table, for the other transactions. -/
theorem Frame.same (hdb : t.db = w.db)
    (hlocks : ∀ digest, Holds env w sid digest → Holds env t sid digest)
    (hdaily : w.dailyLock = some sid → t.dailyLock = some sid) : Frame env key w t g g sid where
  locks := hlocks
  marker := fun _ r hr => ⟨r, hr, rfl⟩
  daily := fun hlock => ⟨hdaily hlock, rfl, [], by rw [hdb, List.append_nil], fun _ he => by cases he⟩

theorem get_endSession (h : (w.endSession sid).sessions.get other = some s) :
    other ≠ sid ∧ w.sessions.get other = some s := Table.get_erase_eq_some.mp h

theorem holds_endSession (hne : other ≠ sid) {digest : String} (h : Holds env w other digest) :
    Holds env (w.endSession sid) other digest := by
  have hkept : ¬ w.sessionLocks.get (env.hashtext digest) = some sid :=
    fun heq => hne (Option.some.inj (h.symm.trans heq))
  rw [Holds, World.endSession, Table.get_deleteWhere, if_neg (by simpa using hkept)]
  exact h

theorem daily_endSession (hne : other ≠ sid) (h : w.dailyLock = some other) :
    (w.endSession sid).dailyLock = some other := by
  show (if w.dailyLock = some sid then none else w.dailyLock) = some other
  rw [if_neg (fun heq => hne (Option.some.inj (h.symm.trans heq))), h]

/-! ## Steps that change no table -/

theorem Sound.setSession (hs : Sound env key w g)
    (hself : InFlight env key (w.setSession sid s) g sid s) :
    Sound env key (w.setSession sid s) g := by
  refine hs.advance sid rfl ⟨rfl, rfl, fun other s' hne hother => ?_,
    fun other _ => Frame.same rfl (fun _ hl => hl) (fun hl => hl), fun s' hs' => ?_⟩
  · rwa [World.setSession, Table.get_set_ne _ hne] at hother
  · rw [World.setSession, Table.get_set_self] at hs'
    cases hs'
    exact hself

theorem Sound.endSession (hs : Sound env key w g) : Sound env key (w.endSession sid) g := by
  refine hs.advance sid rfl ⟨rfl, rfl, fun other s' _ hother => (get_endSession hother).2,
    fun other hne => Frame.same rfl (fun _ hl => holds_endSession hne hl)
      (fun hl => daily_endSession hne hl), fun s' hs' => ?_⟩
  exact absurd rfl (get_endSession hs').1

theorem Sound.lockSession {digest : String} (hs : Sound env key w g)
    (h : w.lockSession env sid digest s = some t)
    (hself : Holds env t sid digest → t.clock = w.clock → InFlight env key t g sid s) :
    Sound env key t g := by
  rw [World.lockSession] at h
  split at h
  · next hfree =>
    cases h
    refine hs.advance sid rfl ⟨rfl, rfl, fun other s' hne hother => ?_,
      fun other hne => Frame.same rfl (fun digest' hl => ?_) (fun hl => hl), fun s' hs' => ?_⟩
    · rwa [World.setSession, Table.get_set_ne _ hne] at hother
    · -- The lock was free, so it is another one that is held.
      have hother : env.hashtext digest' ≠ env.hashtext digest := by
        intro heq
        rw [Holds, heq, hfree] at hl
        cases hl
      rw [Holds, Table.get_set_ne _ hother]
      exact hl
    · rw [World.setSession, Table.get_set_self] at hs'
      cases hs'
      exact hself (Table.get_set_self _ _ _) rfl
  · cases h

theorem Sound.lockDaily (hs : Sound env key w g) (h : w.lockDaily sid s = some t)
    (hself : t.dailyLock = some sid → (∀ digest, Holds env w sid digest → Holds env t sid digest) →
      t.clock = w.clock → InFlight env key t g sid s) : Sound env key t g := by
  rw [World.lockDaily] at h
  split at h
  · next hfree =>
    cases h
    refine hs.advance sid rfl ⟨rfl, rfl, fun other s' hne hother => ?_,
      fun other _ => Frame.same rfl (fun _ hl => hl) (fun hl => ?_), fun s' hs' => ?_⟩
    · rwa [World.setSession, Table.get_set_ne _ hne] at hother
    · rw [hfree] at hl
      cases hl
    · rw [World.setSession, Table.get_set_self] at hs'
      cases hs'
      exact hself rfl (fun _ hl => hl) rfl
  · cases h

/-! ## Collections -/

variable {row : AnalyticsEvent}

theorem ofSession_eq_true (h : ofSession k e = true) :
    e.tenantId = k.tenantId ∧ e.siteId = some k.siteId ∧ e.session = some k.sessionDigest := by
  simp only [ofSession, Bool.and_eq_true, decide_eq_true_eq] at h
  exact ⟨h.1.1.1, h.1.1.2, h.2⟩

/-- A row belongs to one session. -/
theorem ofSession_unique {k' : SessionKey} (h : ofSession k e = true) (h' : ofSession k' e = true) :
    k = k' := by
  obtain ⟨htenant, hsite, hdigest⟩ := ofSession_eq_true h
  obtain ⟨htenant', hsite', hdigest'⟩ := ofSession_eq_true h'
  obtain ⟨tenant, site, digest⟩ := k
  obtain ⟨tenant', site', digest'⟩ := k'
  simp_all

/-- A row of the site with the digest of the session is of the session. -/
theorem ofSession_of_inDay (h : ofSession k e = true)
    (hdigest : k.sessionDigest = key.sessionDigest) (hday : InDay key d e) : k = key := by
  obtain ⟨htenant, hsite, _⟩ := ofSession_eq_true h
  obtain ⟨htenant', hsite', _⟩ := hday
  obtain ⟨tenant, site, digest⟩ := k
  obtain ⟨tenant', site', digest'⟩ := key
  simp_all

/-- A collection commits. -/
theorem Sound.insert (hs : Sound env key w g)
    (hget : w.sessions.get sid = some (.collectChecked k row))
    (htimely : k.sessionDigest = key.sessionDigest ∨ day row.createdAt = day w.clock) :
    Sound env key (World.endSession { w with
      db := { w.db with events := w.db.events ++ [row] } } sid) g := by
  cases hs.flight sid _ hget with
  | collectChecked _ _ hrow hlock hfree =>
    have hnotSettled : ∀ d, Settled g w.clock d → ¬ InDay key d row := by
      intro d hd hday
      rcases htimely with hdigest | hpresent
      · obtain ⟨r, hr, hlt, _⟩ := hd
        have hk := ofSession_of_inDay hrow hdigest hday
        exact absurd hlt (not_lt.mpr (hfree hk r hr))
      · have hlt := hs.settled_lt hd
        rw [← hday.2.2, hpresent] at hlt
        exact lt_irrefl _ hlt
    refine ⟨hs.past, fun r hr hlt => ?_, fun d hd => ?_, hs.flight_advance sid ⟨rfl, rfl,
      fun other s' _ hother => (get_endSession hother).2, fun other hne => ?_, fun s' hs' => ?_⟩⟩
    · obtain ⟨hmarker, hnone⟩ := hs.forgotten r hr hlt
      refine ⟨hmarker, fun e he => ?_⟩
      rcases List.mem_append.mp he with hold | hnew
      · exact hnone e hold
      rw [List.mem_singleton.mp hnew]
      refine Bool.eq_false_iff.mpr (fun hof => ?_)
      exact absurd hlt (not_lt.mpr (hfree (ofSession_unique hrow hof) r hr))
    · refine (hs.counted d hd).congr (members_append_of_not_inDay (fun e he => ?_))
      rw [List.mem_singleton.mp he]
      exact hnotSettled d hd
    · refine ⟨fun _ hl => holds_endSession hne hl, fun _ r hr => ⟨r, hr, rfl⟩,
        fun hl => ⟨daily_endSession hne hl, rfl, [row], rfl, fun e he => ?_⟩⟩
      rw [List.mem_singleton.mp he]
      -- Two transactions do not hold the lock of one session.
      have hexclusive : ∀ digest, Holds env w other digest → digest ≠ k.sessionDigest := by
        rintro digest hother rfl
        exact hne (Option.some.inj (hother.symm.trans hlock))
      refine ⟨fun k' hother => ?_, hnotSettled, fun hother d hd hday => ?_⟩
      · refine Bool.eq_false_iff.mpr (fun hof => ?_)
        exact hexclusive _ hother (congrArg _ (ofSession_unique hof hrow))
      · rcases htimely with hdigest | hpresent
        · exact hexclusive _ hother hdigest.symm
        · rw [← hday.2.2, hpresent] at hd
          exact lt_irrefl _ hd
    · exact absurd rfl (get_endSession hs').1

/-! ## Withdrawals -/

variable {db : Db}

theorem hasRead_affectedDays (w : World) (k : SessionKey) (now : Time) :
    HasRead w k now (affectedDays w.db k now) where
  all := by
    intro e he hof hlt
    refine List.mem_dedup.mpr (List.mem_map.mpr ⟨e, List.mem_filter.mpr ⟨he, ?_⟩, rfl⟩)
    rw [hof, Bool.true_and, decide_eq_true_eq, lt_utcMidnight]
    exact hlt
  complete := by
    intro d hd
    obtain ⟨e, he, rfl⟩ := List.mem_map.mp (List.mem_dedup.mp hd)
    have hlt := (Bool.and_eq_true_iff.mp (List.mem_filter.mp he).2).2
    exact lt_utcMidnight.mp (of_decide_eq_true hlt)

/-- The days that are counted again. -/
theorem recount_affected (events : List AnalyticsEvent) (htenant : k.tenantId = key.tenantId)
    (hsite : k.siteId = key.siteId) (hd : d ∈ affected) (hlt : d < day now) :
    Matches key db.sites (recount db k now affected events) events d := by
  intro event path
  have hcovers : covers (day now) ⟨some k.tenantId, some k.siteId, some affected⟩
      ⟨key.tenantId, key.siteId, d, event, path⟩ = true := by
    simp [covers, RollupFilter.admitsKey, hlt, htenant, hsite, hd]
  rw [recount, if_neg (List.ne_nil_of_mem hd), get_rollupRows, Table.get_deleteWhere, aggregateAt]
  simp only [hcovers, true_and]
  split
  · rfl
  · rw [if_pos (by simp [htenant, hsite, hd])]

/-- The other aggregates stay. -/
theorem recount_other (events : List AnalyticsEvent)
    (h : ¬ (k.tenantId = key.tenantId ∧ k.siteId = key.siteId ∧ d ∈ affected))
    (event path : String) :
    (recount db k now affected events).get ⟨key.tenantId, key.siteId, d, event, path⟩
      = db.aggregates.get ⟨key.tenantId, key.siteId, d, event, path⟩ := by
  have hcovers : ¬ covers (day now) ⟨some k.tenantId, some k.siteId, some affected⟩
      ⟨key.tenantId, key.siteId, d, event, path⟩ = true := by
    intro hcov
    simp only [covers, RollupFilter.admitsKey, Option.all_some, Bool.and_eq_true,
      decide_eq_true_eq] at hcov
    exact h ⟨hcov.2.1.1.symm, hcov.2.1.2.symm, hcov.2.2⟩
  rw [recount]
  split
  · rfl
  rw [get_rollupRows, if_neg (fun hboth => hcovers hboth.1), Table.get_deleteWhere, if_neg]
  simp only [Bool.and_eq_true, decide_eq_true_eq]
  exact fun hboth => h ⟨hboth.1.1.symm, hboth.1.2.symm, hboth.2⟩

theorem Sound.recount (hs : Sound env key w g)
    (hget : w.sessions.get sid = some (.revokeDeleted k now affected seen)) :
    Sound env key (w.setSession sid (.revokeCounted k now affected seen
      (Withdrawal.recount w.db k now affected (deleteSeen seen (ofSession k) w.db.events)))) g := by
  cases hs.flight sid _ hget with
  | revokeDeleted _ _ _ _ hopen hread hdeleted =>
    refine hs.setSession (.revokeCounted k now affected seen _ ⟨hopen.past, hopen.session,
      hopen.daily⟩ ⟨hread.all, hread.complete⟩ ⟨hdeleted.le, hdeleted.rest⟩ ?_ ?_)
    · rintro rfl d hd
      exact recount_affected _ rfl rfl hd (hread.complete d hd)
    · intro d hd hor
      by_cases haffected : k.tenantId = key.tenantId ∧ k.siteId = key.siteId ∧ d ∈ affected
      · obtain ⟨htenant, hsite, hmem⟩ := haffected
        exact recount_affected _ htenant hsite hmem (hread.complete d hmem)
      -- What is deleted of the site is not of this day.
      have hkept : ∀ e ∈ w.db.events, InDay key d e → ofSession k e = false := by
        intro e he hday
        refine Bool.eq_false_iff.mpr (fun hof => ?_)
        rcases hor with hlt | hdigest
        · obtain ⟨htenant, hsite, _⟩ := ofSession_eq_true hof
          have hsite' := Option.some.inj (hsite.symm.trans hday.2.1)
          have hmem := hread.all e he hof (hday.2.2 ▸ hlt)
          exact haffected ⟨htenant.symm.trans hday.1, hsite', hday.2.2 ▸ hmem⟩
        · have hk := ofSession_of_inDay hof hdigest hday
          rw [hk, hs.none_of_settled hd e he] at hof
          cases hof
      intro event path
      show (Withdrawal.recount w.db k now affected _).get _ = _
      rw [recount_other _ haffected, hs.counted d hd event path]
      exact (aggregateAt_congr (members_deleteSeen seen hkept event path)).symm

theorem mem_deleteSeen (h : e ∈ deleteSeen seen p events) : e ∈ events := by
  rcases List.mem_append.mp h with hseen | hrest
  · exact List.mem_of_mem_take (List.mem_filter.mp hseen).1
  · exact List.mem_of_mem_drop hrest

/-- A withdrawal commits. -/
theorem Sound.revoke (hs : Sound env key w g)
    (hget : w.sessions.get sid = some (.revokeCounted k now affected seen aggregates))
    (htimely : k.sessionDigest = key.sessionDigest ∨ day now = day w.clock) :
    Sound env key (World.endSession { w with
        db := { w.db with
          events := deleteSeen seen (ofSession k) w.db.events
          aggregates := aggregates
          revoked := w.db.revoked.set k (now + days 1) } } sid)
      (g.add key w (.revokeCounted k now affected seen aggregates)) := by
  cases hs.flight sid _ hget with
  | revokeCounted _ _ _ _ _ hopen hread hdeleted hown hsettled =>
    have hflight : ∀ g' : History, (k ≠ key → g' = g) → ∀ other, other ≠ sid →
        Frame env key w (World.endSession { w with
          db := { w.db with
            events := deleteSeen seen (ofSession k) w.db.events
            aggregates := aggregates
            revoked := w.db.revoked.set k (now + days 1) } } sid) g g' other := by
      intro g' hg other hne
      refine ⟨fun _ hl => holds_endSession hne hl, fun hl r hr => ?_, fun hl => ?_⟩
      · have hk : k ≠ key := by
          rintro rfl
          exact hne (Option.some.inj (hl.symm.trans hopen.session))
        rw [hg hk] at hr
        exact ⟨r, hr, rfl⟩
      · exact absurd (Option.some.inj (hl.symm.trans hopen.daily)) hne
    rw [History.add]
    split
    · next hk =>
      subst hk
      refine ⟨fun r hr => ?_, fun r hr _ => ⟨?_, fun e he => ?_⟩, fun d hd => ?_,
        hs.flight_advance sid ⟨rfl, rfl, fun other s _ hother => (get_endSession hother).2,
          hflight _ (fun hne => absurd rfl hne),
          fun s hself => absurd rfl (get_endSession hself).1⟩⟩
      · cases hr
        exact hopen.past
      · cases hr
        exact Table.get_set_self _ _ _
      · rcases List.mem_append.mp he with hseen | hrest
        · exact (Bool.not_eq_true' _).mp (List.mem_filter.mp hseen).2
        · exact hdeleted.rest e hrest
      · obtain ⟨r, hr, _, hmem, hlt, _⟩ := hd
        cases hr
        obtain ⟨e, he, rfl⟩ := List.mem_map.mp hmem
        obtain ⟨hseen, hof⟩ := List.mem_filter.mp he
        exact hown rfl _ (hread.all e (List.mem_of_mem_take hseen) hof hlt)
    · next hk =>
      refine ⟨hs.past, fun r hr hlt => ?_, fun d hd => ?_,
        hs.flight_advance sid ⟨rfl, rfl, fun other s _ hother => (get_endSession hother).2,
          hflight _ (fun _ => rfl), fun s hself => absurd rfl (get_endSession hself).1⟩⟩
      · obtain ⟨hmarker, hnone⟩ := hs.forgotten r hr hlt
        refine ⟨?_, fun e he => hnone e (mem_deleteSeen he)⟩
        show (w.db.revoked.set k (now + days 1)).get key = _
        rw [Table.get_set_ne _ (Ne.symm hk), hmarker]
      · refine hsettled d hd ?_
        rcases htimely with hdigest | hpresent
        · exact .inr hdigest
        · exact .inl (hpresent ▸ hs.settled_lt hd)

/-! ## Rollups -/

variable {settings : Settings}

/-- A rollup counts the days of which it will keep the raw events. -/
theorem countComplete_matches (hcutoff : rawCutoff settings now ≤ d)
    (h : Matches key db.sites db.aggregates db.events d) :
    Matches key db.sites (countComplete db settings now) db.events d := by
  intro event path
  have hcovers : covers (day now) .all ⟨key.tenantId, key.siteId, d, event, path⟩ = true
      ↔ d < day now := by
    simp [covers, RollupFilter.admitsKey, RollupFilter.all]
  rw [countComplete, get_rollupRows, Table.get_deleteWhere]
  simp only [hcovers]
  by_cases hlt : d < day now
  · simp [aggregateAt, hlt, hcutoff]
  · rw [if_neg (fun hboth => hlt hboth.1), if_neg (by simp [hlt])]
    exact h event path

theorem get_keepRows {t : Table SessionKey Time} {p : SessionKey × Time → Bool} {expiresAt : Time}
    (h : t.get k = some expiresAt) (hp : p (k, expiresAt) = true) :
    (Table.empty.insertAll (t.rows.filter p)).get k = some expiresAt := by
  have hnodup : ((t.rows.filter p).map (·.1)).Nodup :=
    (List.filter_sublist.map _).nodup (t.rows_keys ▸ t.nodup)
  exact Table.get_insertAll_of_mem hnodup
    (List.mem_filter.mpr ⟨Table.mem_rows.mpr h, hp⟩) _

/-- A rollup commits. -/
theorem Sound.purge (hs : Sound env key w g)
    (hget : w.sessions.get sid = some (.rollupPurged settings now aggregates seen)) :
    Sound env key (World.endSession { w with
        db := { w.db with
          events := deleteSeen seen
            (fun e => decide (e.createdAt < utcMidnight (rawCutoff settings now))) w.db.events
          aggregates := aggregates.deleteWhere
            (fun k => decide (k.eventDate < aggregateCutoff settings now))
          revoked := Table.empty.insertAll
            (w.db.revoked.rows.filter (fun r => decide (now < r.2))) } } sid)
      (g.add key w (.rollupPurged settings now aggregates seen)) := by
  cases hs.flight sid _ hget with
  | rollupPurged _ _ _ _ hpast hdaily hle hsettled =>
    rw [History.add]
    refine ⟨fun r hr => ?_, fun r hr hlt => ?_, fun d hd => ?_, hs.flight_advance sid ⟨rfl, rfl,
      fun other s _ hother => (get_endSession hother).2, fun other hne => ?_,
      fun s hself => absurd rfl (get_endSession hself).1⟩⟩
    · obtain ⟨r₀, hr₀, rfl⟩ := Option.map_eq_some_iff.mp hr
      exact hs.past r₀ hr₀
    · obtain ⟨r₀, hr₀, rfl⟩ := Option.map_eq_some_iff.mp hr
      obtain ⟨hmarker, hnone⟩ := hs.forgotten r₀ hr₀ hlt
      have hkept : decide (now < r₀.now + days 1) = true := decide_eq_true (hpast.trans_lt hlt)
      exact ⟨get_keepRows hmarker hkept, fun e he => hnone e (mem_deleteSeen he)⟩
    · obtain ⟨r, hr, hlt, hmem, hbefore, hpurged⟩ := hd
      obtain ⟨r₀, hr₀, rfl⟩ := Option.map_eq_some_iff.mp hr
      have hd₀ : Settled g w.clock d :=
        ⟨r₀, hr₀, hlt, hmem, hbefore, (le_max_left _ _).trans hpurged⟩
      have hcutoff : rawCutoff settings now ≤ d := (le_max_right _ _).trans hpurged
      have hmembers := @members_deleteSeen key w.db.sites w.db.events
        (fun e => decide (e.createdAt < utcMidnight (rawCutoff settings now))) d seen
        (fun e _ hday => decide_eq_false (fun hold =>
          absurd (lt_utcMidnight.mp hold) (not_lt.mpr (hday.2.2 ▸ hcutoff))))
      have hkept : ¬ d < aggregateCutoff settings now :=
        not_lt.mpr ((aggregateCutoff_le settings now).trans hcutoff)
      refine Matches.congr (fun event path => ?_) hmembers
      show (aggregates.deleteWhere _).get _ = _
      rw [Table.get_deleteWhere, if_neg (by simp [hkept])]
      exact hsettled d hd₀ hcutoff event path
    · refine ⟨fun _ hl => holds_endSession hne hl, fun _ r hr => ?_, fun hl => ?_⟩
      · obtain ⟨r₀, hr₀, rfl⟩ := Option.map_eq_some_iff.mp hr
        exact ⟨r₀, hr₀, rfl⟩
      · exact absurd (Option.some.inj (hl.symm.trans hdaily)) hne

/-! ## Steps -/

theorem Sound.next (hs : Sound env key w g) (hget : w.sessions.get sid = some s)
    (htimely : timely key w (.next sid, w.clock) = true)
    (h : Withdrawal.next env w sid s = some t) : Sound env key t (g.add key w s) := by
  rw [timely] at htimely
  dsimp only at htimely
  rw [hget] at htimely
  have hflight := hs.flight sid s hget
  cases s with
  | collecting k row =>
    refine hs.lockSession h (fun hlock _ => ?_)
    cases hflight with
    | collecting _ _ hrow => exact .collectLocked k row hrow hlock
  | collectLocked k row =>
    rw [Withdrawal.next] at h
    split at h
    · cases h
      exact hs.endSession
    · next hfree =>
      cases h
      cases hflight with
      | collectLocked _ _ hrow hlock =>
        refine hs.setSession (.collectChecked k row hrow hlock (fun hk r hr => ?_))
        -- A marker that stands would have been found.
        refine not_lt.mp (fun hlt => hfree ?_)
        rw [sessionWasRevoked, hk, (hs.forgotten r hr hlt).1, Option.any_some]
        exact decide_eq_true hlt
  | collectChecked k row =>
    cases h
    exact hs.insert hget
      ((Bool.or_eq_true_iff.mp htimely).imp of_decide_eq_true of_decide_eq_true)
  | revoking k now =>
    refine hs.lockSession h (fun hlock hclock => ?_)
    cases hflight with
    | revoking _ _ hpast => exact .revokeLocked k now (hclock ▸ hpast) hlock
  | revokeLocked k now =>
    refine hs.lockDaily h (fun hdaily hlocks hclock => ?_)
    cases hflight with
    | revokeLocked _ _ hpast hlock =>
      exact .revokeOpen k now ⟨hclock ▸ hpast, hlocks _ hlock, hdaily⟩
  | revokeOpen k now =>
    cases h
    cases hflight with
    | revokeOpen _ _ hopen =>
      obtain ⟨hall, hcomplete⟩ := hasRead_affectedDays w k now
      exact hs.setSession (.revokeRead k now _ ⟨hopen.past, hopen.session, hopen.daily⟩
        ⟨hall, hcomplete⟩)
  | revokeRead k now affected =>
    cases h
    cases hflight with
    | revokeRead _ _ _ hopen hread =>
      refine hs.setSession (.revokeDeleted k now affected _
        ⟨hopen.past, hopen.session, hopen.daily⟩ ⟨hread.all, hread.complete⟩
        ⟨le_refl _, fun e he => ?_⟩)
      rw [World.setSession, List.drop_length] at he
      cases he
  | revokeDeleted k now affected seen =>
    cases h
    exact hs.recount hget
  | revokeCounted k now affected seen aggregates =>
    cases h
    exact hs.revoke hget
      ((Bool.or_eq_true_iff.mp htimely).imp of_decide_eq_true of_decide_eq_true)
  | rollingUp settings now =>
    refine hs.lockDaily h (fun hdaily _ hclock => ?_)
    cases hflight with
    | rollingUp _ _ hpast => exact .rollupLocked settings now (hclock ▸ hpast) hdaily
  | rollupLocked settings now =>
    cases h
    cases hflight with
    | rollupLocked _ _ hpast hdaily =>
      exact hs.setSession (.rollupCounted settings now _ hpast hdaily
        (fun d hd hcutoff => countComplete_matches hcutoff (hs.counted d hd)))
  | rollupCounted settings now aggregates =>
    cases h
    cases hflight with
    | rollupCounted _ _ _ hpast hdaily hsettled =>
      exact hs.setSession (.rollupPurged settings now aggregates _ hpast hdaily (le_refl _)
        hsettled)
  | rollupPurged settings now aggregates seen =>
    cases h
    exact hs.purge hget

theorem openCollection_ofSession {body : TelemetryEventIn}
    {site : Except HttpError (SiteId × TenantId)}
    (h : openCollection env body site now = .ok (some (k, row))) : ofSession k row = true := by
  rw [openCollection] at h
  split at h
  · cases h
  split at h
  · cases h
  split at h
  · cases h
  split at h
  · cases h
  split at h
  · cases h
  · cases h
    simp [ofSession]

theorem Sound.perform {a : Action} (hs : Sound env key w g)
    (htimely : timely key w (a, w.clock) = true) (h : Withdrawal.perform env w a = some t) :
    Sound env key t (note key w (a, w.clock) g) := by
  cases a with
  | collect sid body site =>
    simp only [Withdrawal.perform] at h
    split at h
    · split at h
      · next hopen =>
        cases h
        exact hs.setSession (.collecting _ _ (openCollection_ofSession hopen))
      · cases h
    · cases h
  | revoke sid site sessionId =>
    simp only [Withdrawal.perform] at h
    split at h
    · split at h
      · cases h
        exact hs.setSession (.revoking _ _ (le_refl _))
      · cases h
    · cases h
  | rollup sid settings =>
    simp only [Withdrawal.perform] at h
    split at h
    · cases h
      exact hs.setSession (.rollingUp _ _ (le_refl _))
    · cases h
  | next sid =>
    obtain ⟨s, hget, hnext⟩ := Option.bind_eq_some_iff.mp h
    simp only [note, hget, Option.elim_some]
    exact hs.next hget htimely hnext
  | abort sid =>
    obtain ⟨s, _, rfl⟩ := Option.map_eq_some_iff.mp h
    exact hs.endSession

theorem Sound.step {op : Action × Time} (hs : Sound env key w g) (htimely : timely key w op = true)
    (h : Withdrawal.step env w op = some t) : Sound env key t (note key w op g) := by
  rw [Withdrawal.step] at h
  split_ifs at h
  next hle => exact (hs.tick (not_lt.mp hle)).perform htimely h

/-! ## Runs -/

/-- **A withdrawal is final.** In every run, whatever the tables held before: while the marker of
the last withdrawal of a session has not expired it is there, the session has no raw event, and the
days on which the withdrawal has deleted events and which were complete at the time it had read have
the aggregates of the events that are left, until a rollup purges these. -/
theorem withdrawal_final {w t : World} {g : History} {run : List (Action × Time)} (hinit : Init w)
    (htimely : Along (step env) (fun s op _ => timely key s op = true) w run)
    (hrun : exec (withGhost (step env) (note key)) (w, none) run = some (t, g)) :
    ∀ r, g = some r → t.clock < r.now + days 1 →
      Forgotten key t r ∧ ∀ d ∈ r.days, d < day r.now → r.purged ≤ d →
        Matches key t.db.sites t.db.aggregates t.db.events d := by
  have hsound : Sound env key t g :=
    exec_invariant (I := fun s : World × History => Sound env key s.1 s.2)
      (G := fun s op _ => timely key s.1 op = true)
      (fun s op u hs hop hstep => by
        obtain ⟨hst, hnote⟩ := withGhost_eq_some.mp hstep
        rw [hnote]
        exact hs.step hop hst)
      hinit.sound ((along_withGhost (note key)).mpr htimely) hrun
  intro r hr hlt
  exact ⟨hsound.forgotten r hr hlt,
    fun d hd hbefore hpurged => hsound.counted d ⟨r, hr, hlt, hd, hbefore, hpurged⟩⟩


/-- Digests that are the session ids. -/
def plainEnv : Env := ⟨⟨id, fun _ => true⟩, fun _ => 0⟩

def visitor : SessionKey := ⟨1, 1, "aaaaaaaaaaaaaaaa"⟩

def view (session : String) (time : Time) : AnalyticsEvent :=
  ⟨1, some 1, "page_view", some "/", some session, .firstParty, time⟩

/-- One site, and page views of two visitors on the day 10. -/
def twoVisitors : World where
  db := ⟨fun site => if site = 1 then some 1 else none,
    [view "aaaaaaaaaaaaaaaa" (days 10), view "bbbbbbbbbbbbbbbb" (days 10)], Table.empty, Table.empty⟩
  clock := days 10
  sessions := Table.empty
  sessionLocks := Table.empty
  dailyLock := none

/-- Noon of the day 17. -/
def noon : Time := days 17 + seconds 43200

/-- The first visitor withdraws. -/
def withdraws : List (Action × Time) :=
  (.revoke 0 1 "aaaaaaaaaaaaaaaa", noon) :: List.replicate 6 (.next 0, noon)

def pageView : TelemetryEventIn := ⟨"page_view", "/", "aaaaaaaaaaaaaaaa", true, false⟩

/-- The page view comes while the visitor withdraws, and waits for the lock. -/
def viewsMeanwhile : List (Action × Time) :=
  (.revoke 0 1 "aaaaaaaaaaaaaaaa", noon) :: (.next 0, noon) :: (.collect 1 pageView 1, noon)
    :: List.replicate 5 (.next 0, noon) ++ [(.next 1, noon), (.next 1, noon)]

/-- The page view is not stored, and the other one is counted. -/
theorem withdrawal_final_viewsMeanwhile : ∃ t r,
    exec (withGhost (step plainEnv) (note visitor)) (twoVisitors, none) viewsMeanwhile
      = some (t, some r)
    ∧ t.db.events = [view "bbbbbbbbbbbbbbbb" (days 10)] ∧ Forgotten visitor t r
    ∧ Matches visitor t.db.sites t.db.aggregates t.db.events 10 := by
  have hrun : (exec (withGhost (step plainEnv) (note visitor)) (twoVisitors, none)
      viewsMeanwhile).bind (fun s => s.2.map (fun r =>
        (s.1.db.events, decide (s.1.clock < r.now + days 1),
          decide (10 ∈ r.days ∧ 10 < day r.now ∧ r.purged ≤ 10))))
      = some ([view "bbbbbbbbbbbbbbbb" (days 10)], true, true) := by decide +kernel
  have htimely : Along (step plainEnv) (fun s op _ => timely visitor s op = true)
      twoVisitors viewsMeanwhile := by decide +kernel
  obtain ⟨⟨t, g⟩, hexec, hend⟩ := Option.bind_eq_some_iff.mp hrun
  obtain ⟨r, rfl, hr⟩ := Option.map_eq_some_iff.mp hend
  obtain ⟨hevents, hrest⟩ := Prod.mk.inj hr
  obtain ⟨hlt, hday⟩ := Prod.mk.inj hrest
  obtain ⟨hmem, hbefore, hpurged⟩ := of_decide_eq_true hday
  obtain ⟨hforgotten, hmatches⟩ :=
    withdrawal_final ⟨rfl, rfl, rfl⟩ htimely hexec r rfl (of_decide_eq_true hlt)
  exact ⟨t, r, hexec, hevents, hforgotten, hmatches 10 hmem hbefore hpurged⟩

/-- A rollup runs after midnight. -/
theorem raw_week : 7 ≤ 7 ∧ 7 ≤ 90 := by decide

def rollsUp : List (Action × Time) :=
  (.rollup 1 ⟨7, 90, raw_week, by decide, by decide⟩, days 18)
    :: List.replicate 4 (.next 1, days 18)

/-- The rollup deletes the page view of the other visitor and keeps what has been counted, as it
does with all older days: there is no raw event, and the aggregate is 1. -/
theorem withdrawal_final_purged : ∃ t r,
    exec (withGhost (step plainEnv) (note visitor)) (twoVisitors, none) (withdraws ++ rollsUp)
      = some (t, some r)
    ∧ t.clock < r.now + days 1 ∧ 10 ∈ r.days ∧ 10 < day t.clock
    ∧ ¬ Matches visitor t.db.sites t.db.aggregates t.db.events 10 := by
  have hrun : (exec (withGhost (step plainEnv) (note visitor)) (twoVisitors, none)
      (withdraws ++ rollsUp)).bind (fun s => s.2.map (fun r =>
        (s.1.db.events, s.1.db.aggregates.get ⟨1, 1, 10, "page_view", "/"⟩,
          decide (s.1.clock < r.now + days 1 ∧ 10 ∈ r.days ∧ 10 < day s.1.clock))))
      = some ([], some ⟨1, 1⟩, true) := by decide +kernel
  obtain ⟨⟨t, g⟩, hexec, hend⟩ := Option.bind_eq_some_iff.mp hrun
  obtain ⟨r, rfl, hr⟩ := Option.map_eq_some_iff.mp hend
  obtain ⟨hevents, hrest⟩ := Prod.mk.inj hr
  obtain ⟨haggregate, hday⟩ := Prod.mk.inj hrest
  obtain ⟨hlt, hmem, htoday⟩ := of_decide_eq_true hday
  refine ⟨t, r, hexec, hlt, hmem, htoday, fun hmatches => ?_⟩
  have hpage := hmatches "page_view" "/"
  rw [hevents] at hpage
  cases haggregate.symm.trans hpage

end MegaPanel.Withdrawal

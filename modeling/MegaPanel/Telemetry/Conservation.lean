import MegaPanel.Telemetry.Counts

set_option autoImplicit false

/-! # Conservation of telemetry totals

A rollup replaces raw events by counts, so the counts have to keep what the raw events said. The
history variable has all events that were collected and all that a withdrawal has removed. Raw
events of a day are complete until the day is behind a raw cutoff, and from then on its
aggregates are final.

That fails when the cutoff moves back, because the raw retention is raised: the rollup deletes the
aggregates of days whose raw events are gone and cannot count them again.
`telemetry_conserved` is about the runs in which the cutoff does not move back.
-/

namespace MegaPanel.Telemetry

open MegaPanel.Lib

/-! ## The property and the condition -/

/-- What has happened: the events collected, the events that withdrawals removed, and the latest
day before which raw events, and aggregates, have been deleted. -/
structure History where
  collected : List AnalyticsEvent
  removed : List AnalyticsEvent
  purged : Day
  expired : Day

def History.start : History := ⟨[], [], 0, 0⟩

/-- The events that are new in `db` have been collected. -/
def History.collect (g : History) (old db : Db) : History :=
  { g with collected := g.collected ++ db.events.drop (old.events.length) }

/-- The history after an operation. -/
def note (env : Env) (w : World) (op : Action × Time) (g : History) : History :=
  match op.1 with
  | .collect body site =>
    match collectTelemetry env w.db body (siteRow w.db site) op.2 with
    | .ok (db, _) => g.collect w.db db
    | .error _ => g
  | .collectLegacy consent tenant site event path session =>
    g.collect w.db (collectEvent w.db consent tenant site event path session op.2)
  | .rollup settings =>
    { g with
      purged := max g.purged (rawCutoff settings op.2)
      expired := max g.expired (aggregateCutoff settings op.2) }
  | .revoke site sessionId =>
    match siteRow w.db site, sessionDigest env sessionId with
    | .ok (site, tenant), some digest =>
      { g with removed := g.removed ++ w.db.events.filter (ofSession ⟨tenant, site, digest⟩) }
    | _, _ => g

/-- The `event_count` that is stored for a key. -/
def total (db : Db) (k : AggregateKey) : Nat := ((db.aggregates.get k).map (·.eventCount)).getD 0

/-- After a rollup the total of a complete day that has not expired is the number of its events
that were collected, less those that a withdrawal removed. A day whose raw events had been
deleted before keeps its total. -/
def conserved (s : World × History) (op : Action × Time) (t : World × History) : Prop :=
  match op.1 with
  | .rollup _ =>
    ∀ k : AggregateKey, t.2.expired ≤ k.eventDate →
      (k.eventDate < day op.2 →
        total t.1.db k + countKey t.1.db.sites k t.2.removed
          = countKey t.1.db.sites k t.2.collected) ∧
      (k.eventDate < s.2.purged → total t.1.db k = total s.1.db k)
  | _ => True

/-- A rollup does not delete aggregates of days whose raw events are gone. -/
def keepsCutoff (s : World × History) (op : Action × Time) : Bool :=
  match op.1 with
  | .rollup settings => decide (s.2.purged ≤ rawCutoff settings op.2)
  | _ => true

/-- No telemetry has been collected. -/
structure Init (w : World) : Prop where
  events : w.db.events = []
  aggregates : w.db.aggregates = Table.empty

/-! ## The invariant -/

variable {w : World} {s : World × History} {k : AggregateKey}

structure Sound (s : World × History) : Prop where
  /-- Raw events are of days that are not purged. -/
  raw : ∀ e ∈ s.1.db.events, s.2.purged ≤ day e.createdAt
  cutoff : s.2.purged ≤ day s.1.clock
  /-- The raw events of other days are complete. -/
  live : ∀ k : AggregateKey, s.2.purged ≤ k.eventDate →
    countKey s.1.db.sites k s.1.db.events + countKey s.1.db.sites k s.2.removed
      = countKey s.1.db.sites k s.2.collected
  /-- The aggregates of purged days are final. -/
  past : ∀ k : AggregateKey, s.2.expired ≤ k.eventDate → k.eventDate < s.2.purged →
    total s.1.db k + countKey s.1.db.sites k s.2.removed
      = countKey s.1.db.sites k s.2.collected
  /-- An aggregate of another day is of a complete day and has raw events. -/
  backed : ∀ k a, s.1.db.aggregates.get k = some a → s.2.purged ≤ k.eventDate →
    k.eventDate < day s.1.clock ∧ 0 < countKey s.1.db.sites k s.1.db.events

theorem Init.sound (h : Init w) : Sound (w, History.start) where
  raw e he := by
    rw [h.events] at he
    cases he
  cutoff := Nat.zero_le _
  live k _ := by rw [h.events]; rfl
  past k _ hlt := absurd hlt (Nat.not_lt_zero _)
  backed k a ha _ := by
    rw [h.aggregates] at ha
    cases ha

/-- A key of a purged day has no raw events. -/
theorem Sound.countKey_purged (h : Sound s) (hk : k.eventDate < s.2.purged) :
    countKey s.1.db.sites k s.1.db.events = 0 := by
  refine Nat.eq_zero_of_not_pos (fun hpos => ?_)
  obtain ⟨e, he, hmember⟩ := countKey_pos.mp hpos
  have hday := h.raw e he
  rw [isMember_day hmember] at hday
  exact absurd hk (not_lt.mpr hday)

/-! ## Collection -/

variable {now : Time} {db : Db} {env : Env}

/-- A collection adds some events of the present day, and nothing else changes. -/
structure Collects (w : World) (now : Time) (db : Db) (added : List AnalyticsEvent) : Prop where
  sites : db.sites = w.db.sites
  aggregates : db.aggregates = w.db.aggregates
  events : db.events = w.db.events ++ added
  present : ∀ e ∈ added, e.createdAt = now

theorem Sound.collect (h : Sound s) {added : List AnalyticsEvent} (hnow : s.1.clock ≤ now)
    (hadd : Collects s.1 now db added) : Sound (⟨db, now⟩, s.2.collect s.1.db db) := by
  have hclock := day_mono hnow
  have hdrop : db.events.drop s.1.db.events.length = added := by
    rw [hadd.events]
    exact List.drop_left
  have hpresent : ∀ e ∈ added, s.2.purged ≤ day e.createdAt := by
    intro e he
    rw [hadd.present e he]
    exact h.cutoff.trans hclock
  rw [History.collect, hdrop]
  refine ⟨fun e he => ?_, h.cutoff.trans hclock, fun k hk => ?_, fun k hexp hk => ?_,
    fun k a ha hk => ?_⟩
  · rw [hadd.events] at he
    exact (List.mem_append.mp he).elim (h.raw e) (hpresent e)
  · have hlive := h.live k hk
    simp only [hadd.sites, hadd.events, countKey_append]
    omega
  · have hpast := h.past k hexp hk
    have hnone : countKey s.1.db.sites k added = 0 := by
      refine Nat.eq_zero_of_not_pos (fun hpos => ?_)
      obtain ⟨e, he, hmember⟩ := countKey_pos.mp hpos
      have hday := hpresent e he
      rw [isMember_day hmember] at hday
      exact absurd hk (not_lt.mpr hday)
    simp only [total, hadd.sites, hadd.aggregates, countKey_append, hnone]
    exact hpast
  · have ha' : s.1.db.aggregates.get k = some a := hadd.aggregates ▸ ha
    obtain ⟨hlt, hpos⟩ := h.backed k a ha' hk
    simp only [hadd.sites, hadd.events, countKey_append]
    exact ⟨hlt.trans_le hclock, Nat.add_pos_left hpos _⟩

theorem collectTelemetry_collects {body : TelemetryEventIn}
    {site : Except HttpError (SiteId × TenantId)} {answer : CollectAnswer}
    (h : collectTelemetry env w.db body site now = .ok (db, answer)) :
    ∃ added, Collects w now db added := by
  have hsame : Collects w now w.db [] := ⟨rfl, rfl, (List.append_nil _).symm, nofun⟩
  unfold collectTelemetry at h
  split at h
  · cases h
    exact ⟨[], hsame⟩
  split at h
  · cases h
  · split at h
    · cases h
    · split at h
      · cases h
      · split at h
        · cases h
        · split at h
          · cases h
            exact ⟨[], hsame⟩
          · cases h
            exact ⟨_, rfl, rfl, rfl, fun e he => by rw [List.mem_singleton.mp he]⟩

theorem collectEvent_collects (w : World) (consent : Bool) (tenant : TenantId)
    (site : Option SiteId) (event : String) (path session : Option String) (now : Time) :
    ∃ added, Collects w now (collectEvent w.db consent tenant site event path session now)
      added := by
  cases consent with
  | true => exact ⟨_, rfl, rfl, rfl, fun e he => by rw [List.mem_singleton.mp he]⟩
  | false => exact ⟨[], rfl, rfl, (List.append_nil _).symm, nofun⟩

/-! ## Rollup -/

variable {settings : Settings}

/-- The aggregates after a rollup, in the order in which its statements decide them. -/
theorem get_rollupAndPurge (db : Db) (settings : Settings) (now : Time) (k : AggregateKey) :
    (rollupAndPurge db settings now).1.aggregates.get k
      = if k.eventDate < aggregateCutoff settings now then none
        else if k.eventDate < day now ∧ 0 < countKey db.sites k db.events then
          some (aggregateOf (members db.sites k db.events))
        else if rawCutoff settings now ≤ k.eventDate ∧ k.eventDate < day now then none
        else db.aggregates.get k := by
  have hcovers : covers (day now) .all k = true ↔ k.eventDate < day now := by
    simp [covers, RollupFilter.admitsKey, RollupFilter.all]
  rw [rollupAndPurge, Table.get_deleteWhere, get_rollupRows, Table.get_deleteWhere]
  simp only [hcovers, decide_eq_true_eq, Bool.and_eq_true]

theorem aggregateCutoff_le (settings : Settings) (now : Time) :
    aggregateCutoff settings now ≤ rawCutoff settings now :=
  Nat.sub_le_sub_left settings.covers _

/-- What a rollup writes for a day of which it still has the raw events. -/
theorem Sound.total_rollup (h : Sound s) (hexp : aggregateCutoff settings now ≤ k.eventDate)
    (hlive : s.2.purged ≤ k.eventDate) (hlt : k.eventDate < day now) :
    total (rollupAndPurge s.1.db settings now).1 k = countKey s.1.db.sites k s.1.db.events := by
  rw [total, get_rollupAndPurge, if_neg (not_lt.mpr hexp)]
  by_cases hpos : 0 < countKey s.1.db.sites k s.1.db.events
  · rw [if_pos ⟨hlt, hpos⟩, Option.map_some, Option.getD_some, aggregateOf, members_length]
  · rw [if_neg (fun hboth => hpos hboth.2), Nat.eq_zero_of_not_pos hpos]
    split
    · rfl
    cases hget : s.1.db.aggregates.get k with
    | none => rfl
    | some a => exact absurd (h.backed k a hget hlive).2 hpos

/-- A rollup leaves the totals of purged days, but for those that expire. -/
theorem Sound.total_purged (h : Sound s) (hcutoff : s.2.purged ≤ rawCutoff settings now)
    (hexp : aggregateCutoff settings now ≤ k.eventDate) (hk : k.eventDate < s.2.purged) :
    total (rollupAndPurge s.1.db settings now).1 k = total s.1.db k := by
  have hnone : ¬ 0 < countKey s.1.db.sites k s.1.db.events := by
    rw [h.countKey_purged hk]
    exact Nat.lt_irrefl 0
  have hwindow : ¬ (rawCutoff settings now ≤ k.eventDate ∧ k.eventDate < day now) :=
    fun hboth => absurd (hk.trans_le hcutoff) (not_lt.mpr hboth.1)
  rw [total, get_rollupAndPurge, if_neg (not_lt.mpr hexp), if_neg (fun hboth => hnone hboth.2),
    if_neg hwindow, total]

theorem countKey_rollup (db : Db) (hk : rawCutoff settings now ≤ k.eventDate) :
    countKey db.sites k (rollupAndPurge db settings now).1.events
      = countKey db.sites k db.events := by
  refine countKey_filter (fun e _ hmember => ?_)
  rw [Bool.not_eq_true', decide_eq_false_iff_not, lt_utcMidnight, isMember_day hmember]
  exact not_lt.mpr hk

theorem Sound.rollup (h : Sound s) (hnow : s.1.clock ≤ now)
    (hcutoff : s.2.purged ≤ rawCutoff settings now) :
    Sound (⟨(rollupAndPurge s.1.db settings now).1, now⟩, { s.2 with
      purged := max s.2.purged (rawCutoff settings now)
      expired := max s.2.expired (aggregateCutoff settings now) }) := by
  have hpurged : max s.2.purged (rawCutoff settings now) = rawCutoff settings now :=
    max_eq_right hcutoff
  have htoday : rawCutoff settings now ≤ day now := Nat.sub_le _ _
  refine ⟨fun e he => ?_, ?_, fun k hk => ?_, fun k hexp hk => ?_, fun k a ha hk => ?_⟩
  · have hlate := (List.mem_filter.mp he).2
    rw [Bool.not_eq_true', decide_eq_false_iff_not, lt_utcMidnight] at hlate
    exact hpurged.trans_le (not_lt.mp hlate)
  · exact hpurged.trans_le htoday
  · have hk' : rawCutoff settings now ≤ k.eventDate := hpurged ▸ hk
    refine Eq.trans ?_ (h.live k (hcutoff.trans hk'))
    exact congrArg (· + countKey s.1.db.sites k s.2.removed) (countKey_rollup s.1.db hk')
  · have hk' : k.eventDate < rawCutoff settings now := hpurged ▸ hk
    obtain ⟨hexpired, hagg⟩ := max_le_iff.mp hexp
    rcases lt_or_ge k.eventDate s.2.purged with hold | hlive
    · refine Eq.trans ?_ (h.past k hexpired hold)
      exact congrArg (· + countKey s.1.db.sites k s.2.removed) (h.total_purged hcutoff hagg hold)
    · refine Eq.trans ?_ (h.live k hlive)
      exact congrArg (· + countKey s.1.db.sites k s.2.removed)
        (h.total_rollup hagg hlive (hk'.trans_le htoday))
  · have hk' : rawCutoff settings now ≤ k.eventDate := hpurged ▸ hk
    have hsame := countKey_rollup s.1.db hk'
    have hget : (rollupAndPurge s.1.db settings now).1.aggregates.get k = some a := ha
    rw [get_rollupAndPurge] at hget
    split at hget
    · cases hget
    split at hget
    · next hcounted => exact ⟨hcounted.1, hsame.symm ▸ hcounted.2⟩
    · split at hget
      · cases hget
      · next hopen =>
        have hbacked := h.backed k a hget (hcutoff.trans hk')
        exact absurd ⟨hk', hbacked.1.trans_le (day_mono hnow)⟩ hopen

/-! ## Withdrawal -/

variable {key : SessionKey}

/-- The aggregates after a withdrawal: those of affected days are counted again. -/
theorem get_revokeSession (db : Db) (key : SessionKey) (now : Time) (k : AggregateKey) :
    (revokeSession db key now).1.aggregates.get k
      = if k.tenantId = key.tenantId ∧ k.siteId = key.siteId
            ∧ k.eventDate ∈ affectedDays db key now then
          if k.eventDate < day now ∧
              0 < countKey db.sites k (db.events.filter (fun e => !ofSession key e)) then
            some (aggregateOf (members db.sites k (db.events.filter (fun e => !ofSession key e))))
          else none
        else db.aggregates.get k := by
  have hcovers : covers (day now)
      ⟨some key.tenantId, some key.siteId, some (affectedDays db key now)⟩ k = true ↔
      (k.eventDate < day now ∧ k.tenantId = key.tenantId ∧ k.siteId = key.siteId
        ∧ k.eventDate ∈ affectedDays db key now) := by
    simp [covers, RollupFilter.admitsKey, and_assoc]
  have hget : (revokeSession db key now).1.aggregates.get k
      = if affectedDays db key now = [] then db.aggregates.get k
        else ((db.aggregates.deleteWhere (fun k => decide (k.tenantId = key.tenantId)
            && decide (k.siteId = key.siteId)
            && decide (k.eventDate ∈ affectedDays db key now))).insertAll
          (rollupRows db.sites (utcMidnight (day now))
            ⟨some key.tenantId, some key.siteId, some (affectedDays db key now)⟩
            (db.events.filter (fun e => !ofSession key e)))).get k := by
    simp only [revokeSession]
    split <;> rfl
  rw [hget]
  by_cases hnil : affectedDays db key now = []
  · rw [if_pos hnil, hnil, if_neg (fun h => by cases h.2.2)]
  · rw [if_neg hnil, get_rollupRows, Table.get_deleteWhere]
    simp only [hcovers]
    by_cases hk : k.tenantId = key.tenantId ∧ k.siteId = key.siteId
        ∧ k.eventDate ∈ affectedDays db key now
    · simp [hk]
    · rw [if_neg hk, if_neg (fun h => hk h.1.2), if_neg]
      simpa [and_assoc] using hk

/-- A day on which the session has a raw event is affected once it is complete. -/
theorem mem_affectedDays {d : Day} :
    d ∈ affectedDays db key now ↔
      ∃ e ∈ db.events, ofSession key e = true ∧ day e.createdAt = d ∧ d < day now := by
  rw [affectedDays, List.mem_dedup, List.mem_map]
  constructor
  · rintro ⟨e, he, rfl⟩
    obtain ⟨hmem, hboth⟩ := List.mem_filter.mp he
    obtain ⟨hsession, hlt⟩ := Bool.and_eq_true_iff.mp hboth
    exact ⟨e, hmem, hsession, rfl, lt_utcMidnight.mp (of_decide_eq_true hlt)⟩
  · rintro ⟨e, hmem, hsession, rfl, hlt⟩
    exact ⟨e, List.mem_filter.mpr ⟨hmem, Bool.and_eq_true_iff.mpr
      ⟨hsession, decide_eq_true (lt_utcMidnight.mpr hlt)⟩⟩, rfl⟩

/-- A member that the withdrawal removes has the tenant and the site of the session. -/
theorem isMember_ofSession {sites : SiteId → Option TenantId} {e : AnalyticsEvent}
    (hmember : isMember sites k e = true) (hsession : ofSession key e = true) :
    k.tenantId = key.tenantId ∧ k.siteId = key.siteId := by
  obtain ⟨htenant, hsite, _⟩ :=
    groupKey_eq_some (of_decide_eq_true (Bool.and_eq_true_iff.mp hmember).2)
  simp only [ofSession, Bool.and_eq_true, decide_eq_true_eq] at hsession
  exact ⟨htenant.symm.trans hsession.1.1.1,
    Option.some.inj (hsite.symm.trans hsession.1.1.2)⟩

theorem Sound.revoke (h : Sound s) (hnow : s.1.clock ≤ now) :
    Sound (⟨(revokeSession s.1.db key now).1, now⟩, { s.2 with
      removed := s.2.removed ++ s.1.db.events.filter (ofSession key) }) := by
  have hclock := day_mono hnow
  have hpart := fun k => countKey_partition s.1.db.sites k (ofSession key) s.1.db.events
  have hpurgedKey : ∀ k : AggregateKey, k.eventDate < s.2.purged →
      k.eventDate ∉ affectedDays s.1.db key now := by
    intro k hk haffected
    obtain ⟨e, he, _, hday, _⟩ := mem_affectedDays.mp haffected
    exact absurd hk (not_lt.mpr (hday ▸ h.raw e he))
  refine ⟨fun e he => h.raw e (List.mem_filter.mp he).1, h.cutoff.trans hclock, fun k hk => ?_,
    fun k hexp hk => ?_, fun k a ha hk => ?_⟩
  · have hlive := h.live k hk
    have hsum := hpart k
    change countKey s.1.db.sites k (s.1.db.events.filter (fun e => !ofSession key e))
      + countKey s.1.db.sites k (s.2.removed ++ s.1.db.events.filter (ofSession key))
        = countKey s.1.db.sites k s.2.collected
    rw [countKey_append]
    omega
  · have hpast := h.past k hexp hk
    have hnone : countKey s.1.db.sites k (s.1.db.events.filter (ofSession key)) = 0 := by
      have hsum := hpart k
      have hzero := h.countKey_purged hk
      omega
    have htotal : total (revokeSession s.1.db key now).1 k = total s.1.db k := by
      rw [total, get_revokeSession, if_neg (fun hall => hpurgedKey k hk hall.2.2), total]
    change total (revokeSession s.1.db key now).1 k
      + countKey s.1.db.sites k (s.2.removed ++ s.1.db.events.filter (ofSession key))
        = countKey s.1.db.sites k s.2.collected
    rw [countKey_append, hnone, htotal]
    exact hpast
  · have hget : (revokeSession s.1.db key now).1.aggregates.get k = some a := ha
    rw [get_revokeSession] at hget
    split at hget
    · split at hget
      · next hcounted => exact hcounted
      · cases hget
    · next hrest =>
      obtain ⟨hlt, hpos⟩ := h.backed k a hget hk
      refine ⟨hlt.trans_le hclock, ?_⟩
      -- the key is of a complete day, so a removed member would make its day affected
      have hkeep : ∀ e ∈ s.1.db.events, isMember s.1.db.sites k e = true →
          (!ofSession key e) = true := by
        intro e he hmember
        rw [Bool.not_eq_true']
        refine Bool.eq_false_iff.mpr (fun hsession => hrest ?_)
        obtain ⟨htenant, hsite⟩ := isMember_ofSession hmember hsession
        exact ⟨htenant, hsite, mem_affectedDays.mpr
          ⟨e, he, hsession, isMember_day hmember, hlt.trans_le hclock⟩⟩
      exact (countKey_filter hkeep).symm ▸ hpos

/-! ## Every run -/

theorem Sound.step {t : World × History} {op : Action × Time} (h : Sound s)
    (hkeeps : keepsCutoff s op = true) (hst : withGhost (step env) (note env) s op = some t) :
    Sound t ∧ conserved s op t := by
  obtain ⟨w, g⟩ := s
  obtain ⟨w', g'⟩ := t
  obtain ⟨action, now⟩ := op
  obtain ⟨hw, hg⟩ := withGhost_eq_some.mp hst
  obtain rfl : g' = note env w (action, now) g := hg
  simp only [MegaPanel.Telemetry.step] at hw
  split_ifs at hw with hclock
  have hnow : w.clock ≤ now := not_lt.mp hclock
  cases action with
  | collect body site =>
    refine ⟨?_, trivial⟩
    cases hcollect : collectTelemetry env w.db body (siteRow w.db site) now with
    | error raised => simp [hcollect, Except.toOption] at hw
    | ok answer =>
      obtain ⟨db, reply⟩ := answer
      obtain ⟨added, hadd⟩ := collectTelemetry_collects hcollect
      simp only [hcollect, Except.toOption, Option.map_some, Option.some.injEq] at hw
      simp only [note, hcollect, ← hw]
      exact h.collect hnow hadd
  | collectLegacy consent tenant site event path session =>
    cases hw
    obtain ⟨added, hadd⟩ := collectEvent_collects w consent tenant site event path session now
    exact ⟨h.collect hnow hadd, trivial⟩
  | rollup settings =>
    cases hw
    have hcutoff : g.purged ≤ rawCutoff settings now := of_decide_eq_true hkeeps
    refine ⟨h.rollup hnow hcutoff, fun k hexp => ?_⟩
    have hagg := (max_le_iff.mp hexp).2
    refine ⟨fun hlt => ?_, fun hk => h.total_purged hcutoff hagg hk⟩
    rcases lt_or_ge k.eventDate g.purged with hold | hlive
    · exact (congrArg (· + countKey w.db.sites k g.removed)
        (h.total_purged hcutoff hagg hold)).trans (h.past k (max_le_iff.mp hexp).1 hold)
    · exact (congrArg (· + countKey w.db.sites k g.removed)
        (h.total_rollup hagg hlive hlt)).trans (h.live k hlive)
  | revoke site sessionId =>
    refine ⟨?_, trivial⟩
    dsimp only at hw
    split at hw
    · next site' tenant digest hsite hdigest =>
      cases hw
      simp only [note, hsite, hdigest]
      exact h.revoke hnow
    · cases hw

/-- **Conservation of telemetry totals.** In every run in which no rollup has a raw cutoff before
an earlier one, each rollup leaves the totals of complete days equal to the events collected less
those removed while raw, and the totals of purged days as they were. -/
theorem telemetry_conserved (env : Env) {w : World} (h : Init w) {ops : List (Action × Time)}
    (hkeeps : Along (withGhost (step env) (note env)) (fun s op _ => keepsCutoff s op = true)
      (w, History.start) ops) :
    Along (withGhost (step env) (note env)) conserved (w, History.start) ops :=
  along_rule (fun _ _ _ hs hk hst => hs.step hk hst) h.sound hkeeps

/-! ## One event -/

def plainEnv : Env := ⟨fun session => session, fun _ => true⟩

/-- A site without telemetry. -/
def quietSite : World where
  db := ⟨fun site => if site = 1 then some 1 else none, [], Table.empty, Table.empty⟩
  clock := 0

theorem quietSite_init : Init quietSite := ⟨rfl, rfl⟩

/-- Retention settings with these raw days. -/
def keepRaw (raw : Nat) (h : 7 ≤ raw ∧ raw ≤ 90) : Settings :=
  ⟨raw, 365, h, by decide, h.2.trans (by decide)⟩

/-- A page view on the day 20100, and a rollup that deletes it ten days later. -/
def viewRun : List (Action × Time) :=
  [(.collect ⟨"page_view", "/", "visitor-session-1", true, false⟩ 1, utcMidnight 20100),
    (.rollup (keepRaw 7 (by decide)), utcMidnight 20110)]

def viewKey : AggregateKey := ⟨1, 1, 20100, "page_view", "/"⟩

/-- The view is still counted when a rollup follows on the next day. -/
theorem telemetry_conserved_view :
    ((exec (withGhost (step plainEnv) (note plainEnv)) (quietSite, History.start)
        (viewRun ++ [(.rollup (keepRaw 7 (by decide)), utcMidnight 20111)])).map
          (fun t => total t.1.db viewKey) = some 1) ∧
      Along (withGhost (step plainEnv) (note plainEnv)) conserved (quietSite, History.start)
        (viewRun ++ [(.rollup (keepRaw 7 (by decide)), utcMidnight 20111)]) :=
  ⟨by decide +kernel, telemetry_conserved plainEnv quietSite_init (by decide +kernel)⟩

/-- The view is deleted. -/
def purgedView : World × History :=
  (exec (withGhost (step plainEnv) (note plainEnv)) (quietSite, History.start) viewRun).get
    (by decide +kernel)

/-- The raw retention is thirty days on the next day. -/
def raised : Action × Time := (.rollup (keepRaw 30 (by decide)), utcMidnight 20111)

def afterRaise : World × History :=
  (withGhost (step plainEnv) (note plainEnv) purgedView raised).get (by decide +kernel)

/-- When the raw retention is raised, the next rollup loses the view. -/
theorem telemetry_conserved_raisedRetention :
    ¬ Along (withGhost (step plainEnv) (note plainEnv)) conserved (quietSite, History.start)
      (viewRun ++ [raised]) := by
  intro h
  have hrun : exec (withGhost (step plainEnv) (note plainEnv)) (quietSite, History.start) viewRun
      = some purgedView := (Option.some_get _).symm
  have hraise : withGhost (step plainEnv) (note plainEnv) purgedView raised = some afterRaise :=
    (Option.some_get _).symm
  have hkept : conserved purgedView raised afterRaise := h.at hrun hraise
  have hsum := (hkept viewKey (by decide +kernel)).1 (by decide +kernel)
  exact absurd hsum (by decide +kernel)

end MegaPanel.Telemetry

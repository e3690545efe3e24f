import MegaPanel.Lib.Dict
import MegaPanel.Telemetry.Conservation

set_option autoImplicit false

/-! # The page view series

`page_view_series` (`services/site_metrics.py`) reports the page views of each day. Days before
the raw cutoff are read from the aggregates, later ones from the raw events. Page views come out
the same on both ways. The sessions do not: raw events are counted by distinct session over the
whole day, and the aggregates hold distinct sessions for each path, which are added up. A visitor
with two paths counts twice then, also against the threshold below which a day is suppressed.
`pageViewSeries_agree` says when this shows.
-/

namespace MegaPanel.Telemetry

open MegaPanel.Lib

/-! ## The report -/

/-- `_LOW_SAMPLE_THRESHOLD` -/
def lowSampleThreshold : Nat := 5

structure SeriesPoint where
  date : Day
  pageViews : Nat
  consentedSessionDays : Option Nat
  lowSample : Bool
  deriving DecidableEq

/-- The tenant and the site a report is about, `none` for all. -/
structure Scope where
  tenantId : Option TenantId
  siteId : Option SiteId

def Scope.admits (scope : Scope) (tenantId : TenantId) (siteId : SiteId) : Bool :=
  scope.tenantId.all (fun tenant => decide (tenantId = tenant))
    && scope.siteId.all (fun site => decide (siteId = site))

/-- The first day of the series. -/
def seriesStart (days : Nat) (now : Time) : Day := day now + 1 - days

/-- A day with its page views and session days. -/
abbrev DayCount := Day × Nat × Nat

/-- The historical part: aggregates from `start` to before the raw cutoff. -/
def historical (db : Db) (scope : Scope) (start cutoff : Day) : List DayCount :=
  (groupRows (fun r => some r.1.eventDate) (db.aggregates.rows.filter (fun r =>
    decide (r.1.event = "page_view") && decide (start ≤ r.1.eventDate)
      && decide (r.1.eventDate < cutoff) && scope.admits r.1.tenantId r.1.siteId))).map
    (fun g => (g.1, (g.2.map (·.2.eventCount)).sum, (g.2.map (·.2.sessionDays)).sum))

/-- The condition on raw events, apart from their time. -/
def isPageView (scope : Scope) (e : AnalyticsEvent) : Bool :=
  decide (e.source = .firstParty) && decide (e.event = "page_view")
    && e.siteId.any (scope.admits e.tenantId)

/-- The raw part: events from the start and the raw cutoff on. -/
def recent (db : Db) (scope : Scope) (start cutoff : Day) (now : Time) : List DayCount :=
  (groupRows (fun e => some (day e.createdAt)) (db.events.filter (fun e =>
    isPageView scope e && decide (utcMidnight (max start cutoff) ≤ e.createdAt)
      && decide (e.createdAt ≤ now)))).map
    (fun g => (g.1, g.2.length, countDistinct AnalyticsEvent.session g.2))

/-- The sums over the union of both parts. -/
def dayTotals (parts : List DayCount) : List DayCount :=
  (groupRows (fun r => some r.1) parts).map
    (fun g => (g.1, (g.2.map (·.2.1)).sum, (g.2.map (·.2.2)).sum))

def seriesPoint (totals : List DayCount) (d : Day) : SeriesPoint :=
  let counts := (dictGet totals d).getD (0, 0)
  { date := d
    pageViews := counts.1
    consentedSessionDays := if lowSampleThreshold ≤ counts.2 then some counts.2 else none
    lowSample := decide (0 < counts.2) && decide (counts.2 < lowSampleThreshold) }

/-- `page_view_series` -/
def pageViewSeries (db : Db) (scope : Scope) (days : Nat) (settings : Settings) (now : Time) :
    List SeriesPoint :=
  let start := seriesStart days now
  let cutoff := rawCutoff settings now
  let totals := dayTotals (historical db scope start cutoff ++ recent db scope start cutoff now)
  (List.range (day now + 1 - start)).map (fun offset => seriesPoint totals (start + offset))

/-! ## The point of one day -/

variable {db : Db} {scope : Scope} {settings : Settings} {now : Time} {d : Day}

/-- The point for a day with these counts. -/
def pointOf (d : Day) (pageViews sessions : Nat) : SeriesPoint where
  date := d
  pageViews := pageViews
  consentedSessionDays := if lowSampleThreshold ≤ sessions then some sessions else none
  lowSample := decide (0 < sessions) && decide (sessions < lowSampleThreshold)

/-- What the parts say about one day. -/
def partsOf (parts : List DayCount) (d : Day) : List DayCount :=
  parts.filter (fun r => decide (r.1 = d))

theorem seriesPoint_dayTotals (parts : List DayCount) (d : Day) :
    seriesPoint (dayTotals parts) d
      = pointOf d ((partsOf parts d).map (·.2.1)).sum ((partsOf parts d).map (·.2.2)).sum := by
  have hcounts : (dictGet (dayTotals parts) d).getD (0, 0)
      = (((partsOf parts d).map (·.2.1)).sum, ((partsOf parts d).map (·.2.2)).sum) := by
    have hgroup : group (fun r : DayCount => some r.1) d parts = partsOf parts d := by
      simp [group, partsOf]
    have hkeys : ((groupRows (fun r : DayCount => some r.1) parts).map (·.1)).Nodup :=
      groupRows_nodup _ _
    by_cases hnil : partsOf parts d = []
    · have hnone : dictGet (dayTotals parts) d = none := by
        refine dictGet_eq_none.mpr (fun e he hd => ?_)
        obtain ⟨⟨k, rows⟩, hg, rfl⟩ := List.mem_map.mp he
        obtain ⟨_, hpos⟩ := mem_groupRows.mp hg
        obtain rfl : k = d := hd
        rw [← group_length, hgroup, hnil] at hpos
        exact Nat.lt_irrefl 0 hpos
      rw [hnone, hnil]
      rfl
    · have hmem : (d, partsOf parts d) ∈ groupRows (fun r : DayCount => some r.1) parts := by
        refine mem_groupRows.mpr ⟨hgroup.symm, ?_⟩
        rw [← group_length, hgroup]
        exact List.length_pos_iff.mpr hnil
      have hget := dictGet_map (·.1) (fun g : Day × List DayCount =>
        ((g.2.map (·.2.1)).sum, (g.2.map (·.2.2)).sum)) hkeys hmem
      rw [dayTotals, hget]
      rfl
  rw [seriesPoint, hcounts]
  rfl

/-- The series has one point for each of its days. -/
theorem mem_pageViewSeries {days : Nat} (hstart : seriesStart days now ≤ d) (hend : d ≤ day now)
    {p : SeriesPoint} :
    p ∈ pageViewSeries db scope days settings now ∧ p.date = d ↔
      p = seriesPoint (dayTotals
        (historical db scope (seriesStart days now) (rawCutoff settings now)
          ++ recent db scope (seriesStart days now) (rawCutoff settings now) now)) d := by
  rw [pageViewSeries, List.mem_map]
  constructor
  · rintro ⟨⟨offset, _, rfl⟩, rfl⟩
    rfl
  · rintro rfl
    exact ⟨⟨d - seriesStart days now,
      List.mem_range.mpr (Nat.sub_lt_sub_right hstart (Nat.lt_succ_of_le hend)),
      by rw [Nat.add_sub_of_le hstart]⟩, rfl⟩

/-- A part that groups rows by their day says about one day what its rows say. -/
theorem sums_partsOf {α : Type*} (key : α → Option Day) (xs : List α)
    (views sessions : List α → Nat) (hviews : views [] = 0) (hsessions : sessions [] = 0) (d : Day) :
    ((partsOf ((groupRows key xs).map (fun g => (g.1, views g.2, sessions g.2))) d).map
        (·.2.1)).sum = views (group key d xs) ∧
      ((partsOf ((groupRows key xs).map (fun g => (g.1, views g.2, sessions g.2))) d).map
        (·.2.2)).sum = sessions (group key d xs) := by
  have hpart : partsOf ((groupRows key xs).map (fun g => (g.1, views g.2, sessions g.2))) d
      = if group key d xs = [] then []
        else [(d, views (group key d xs), sessions (group key d xs))] := by
    rw [partsOf, List.filter_map]
    change List.map _ ((groupRows key xs).filter (fun g => decide (g.1 = d))) = _
    rw [groupRows_filter]
    split <;> rfl
  rw [hpart]
  by_cases h : group key d xs = []
  · rw [if_pos h, h, hviews, hsessions]
    exact ⟨rfl, rfl⟩
  · rw [if_neg h]
    exact ⟨rfl, rfl⟩

/-- The aggregates of a day that a report reads. -/
def aggregatesOn (db : Db) (scope : Scope) (d : Day) : List (AggregateKey × DailyAggregate) :=
  db.aggregates.rows.filter (fun r => decide (r.1.event = "page_view")
    && scope.admits r.1.tenantId r.1.siteId && decide (r.1.eventDate = d))

/-- The raw page views of a day that a report reads. -/
def pageViewsOn (db : Db) (scope : Scope) (d : Day) : List AnalyticsEvent :=
  db.events.filter (fun e => isPageView scope e && decide (day e.createdAt = d))

theorem group_historical (db : Db) (scope : Scope) (start cutoff d : Day) :
    group (fun r : AggregateKey × DailyAggregate => some r.1.eventDate) d
        (db.aggregates.rows.filter (fun r =>
          decide (r.1.event = "page_view") && decide (start ≤ r.1.eventDate)
            && decide (r.1.eventDate < cutoff) && scope.admits r.1.tenantId r.1.siteId))
      = if start ≤ d ∧ d < cutoff then aggregatesOn db scope d else [] := by
  rw [group, List.filter_filter]
  split
  · next h =>
    refine List.filter_congr (fun r _ => ?_)
    by_cases hd : r.1.eventDate = d
    · simp [hd, h.1, h.2]
    · simp [hd]
  · next h =>
    refine List.filter_eq_nil_iff.mpr (fun r _ hr => h ?_)
    simp only [Bool.and_eq_true, decide_eq_true_eq, Option.some.injEq] at hr
    exact hr.1 ▸ ⟨hr.2.1.1.2, hr.2.1.2⟩

theorem group_recent (db : Db) (scope : Scope) (start cutoff d : Day) (hpast : d < day now) :
    group (fun e : AnalyticsEvent => some (day e.createdAt)) d (db.events.filter (fun e =>
        isPageView scope e && decide (utcMidnight (max start cutoff) ≤ e.createdAt)
          && decide (e.createdAt ≤ now)))
      = if start ≤ d ∧ cutoff ≤ d then pageViewsOn db scope d else [] := by
  have hlate : ∀ e : AnalyticsEvent, utcMidnight (max start cutoff) ≤ e.createdAt ↔
      start ≤ day e.createdAt ∧ cutoff ≤ day e.createdAt := by
    intro e
    rw [← not_lt, lt_utcMidnight, not_lt, max_le_iff]
  rw [group, List.filter_filter]
  split
  · next h =>
    refine List.filter_congr (fun e _ => ?_)
    by_cases hd : day e.createdAt = d
    · have hnow : e.createdAt ≤ now := by
        refine le_of_not_gt (fun hgt => ?_)
        exact absurd (hd ▸ day_mono hgt.le) (not_le.mpr hpast)
      simp [hd, hlate, h.1, h.2, hnow]
    · simp [hd]
  · next h =>
    refine List.filter_eq_nil_iff.mpr (fun e _ he => h ?_)
    simp only [Bool.and_eq_true, decide_eq_true_eq, Option.some.injEq, hlate] at he
    exact he.1 ▸ he.2.1.2

/-- **The point of a past day.** Behind the raw cutoff it adds up the aggregates, from the cutoff
on it counts the raw events. -/
theorem seriesPoint_past (db : Db) (scope : Scope) {start cutoff : Day} (hstart : start ≤ d)
    (hpast : d < day now) :
    seriesPoint (dayTotals (historical db scope start cutoff ++ recent db scope start cutoff now)) d
      = if d < cutoff then
          pointOf d ((aggregatesOn db scope d).map (·.2.eventCount)).sum
            ((aggregatesOn db scope d).map (·.2.sessionDays)).sum
        else
          pointOf d (pageViewsOn db scope d).length
            (countDistinct AnalyticsEvent.session (pageViewsOn db scope d)) := by
  have haggregates := sums_partsOf (fun r : AggregateKey × DailyAggregate => some r.1.eventDate)
    (db.aggregates.rows.filter (fun r =>
      decide (r.1.event = "page_view") && decide (start ≤ r.1.eventDate)
        && decide (r.1.eventDate < cutoff) && scope.admits r.1.tenantId r.1.siteId))
    (fun rows => (rows.map (·.2.eventCount)).sum) (fun rows => (rows.map (·.2.sessionDays)).sum)
    rfl rfl d
  have hevents := sums_partsOf (fun e : AnalyticsEvent => some (day e.createdAt))
    (db.events.filter (fun e =>
      isPageView scope e && decide (utcMidnight (max start cutoff) ≤ e.createdAt)
        && decide (e.createdAt ≤ now)))
    List.length (countDistinct AnalyticsEvent.session) rfl rfl d
  rw [group_historical] at haggregates
  rw [group_recent db scope start cutoff d hpast] at hevents
  have hparts : partsOf (historical db scope start cutoff ++ recent db scope start cutoff now) d
      = partsOf (historical db scope start cutoff) d
        ++ partsOf (recent db scope start cutoff now) d := List.filter_append ..
  rw [seriesPoint_dayTotals, hparts, List.map_append, List.map_append, List.sum_append,
    List.sum_append, historical, recent, haggregates.1, haggregates.2, hevents.1, hevents.2]
  by_cases hd : d < cutoff
  · rw [if_pos ⟨hstart, hd⟩, if_neg (fun h => absurd hd (not_lt.mpr h.2)), if_pos hd]
    rfl
  · rw [if_neg (fun h => hd h.2), if_pos ⟨hstart, not_lt.mp hd⟩, if_neg hd]
    simp

/-! ## The aggregates of a day that is rolled up -/

variable {e : AnalyticsEvent} {k : AggregateKey}

/-- Every page view of a valid store has the columns that aggregates are grouped by. -/
theorem groupKey_of_valid {sites : SiteId → Option TenantId} (h : validFirstParty sites e = true) :
    (groupKey e).isSome = true := by
  simp only [validFirstParty, Bool.and_eq_true] at h
  obtain ⟨⟨⟨_, hsite⟩, _⟩, hpath⟩ := h
  obtain ⟨site, hsite', _⟩ := Option.any_eq_true _ _ |>.mp hsite
  obtain ⟨path, hpath', _⟩ := Option.any_eq_true _ _ |>.mp hpath
  rw [groupKey, hsite', hpath']
  rfl

/-- The keys that a report reads for a day. -/
def reads (scope : Scope) (d : Day) (k : AggregateKey) : Bool :=
  decide (k.event = "page_view") && scope.admits k.tenantId k.siteId && decide (k.eventDate = d)

/-- Among valid events, the members of a key that a report reads are the page views it reads with
that key. -/
theorem members_eq_group (hvalid : ∀ e ∈ db.events, validFirstParty db.sites e = true)
    (hk : reads scope d k = true) :
    members db.sites k db.events = group groupKey k (pageViewsOn db scope d) := by
  simp only [reads, Bool.and_eq_true, decide_eq_true_eq] at hk
  obtain ⟨⟨hevent, hadmits⟩, hdate⟩ := hk
  rw [members, group, pageViewsOn, List.filter_filter]
  refine List.filter_congr (fun e he => ?_)
  by_cases hkey : groupKey e = some k
  · have hfields := hkey
    unfold groupKey at hfields
    split at hfields
    · next site path hsite hpath =>
      cases hfields
      have hsource := hvalid e he
      simp only [validFirstParty, Bool.and_eq_true, decide_eq_true_eq] at hsource
      have hevent' : e.event = "page_view" := hevent
      have hadmits' : scope.admits e.tenantId site = true := hadmits
      have hdate' : day e.createdAt = d := hdate
      simp [isMember, hvalid e he, hkey, isPageView, hsource.1.1.1, hsite, hevent', hadmits',
        hdate']
    · cases hfields
  · simp [isMember, hkey]

/-- A page view that a report reads has a key that it reads. -/
theorem reads_of_pageView (he : e ∈ pageViewsOn db scope d) (hkey : groupKey e = some k) :
    reads scope d k = true := by
  obtain ⟨_, hboth⟩ := List.mem_filter.mp he
  simp only [isPageView, Bool.and_eq_true, decide_eq_true_eq] at hboth
  obtain ⟨⟨⟨_, hevent⟩, hsite⟩, hday⟩ := hboth
  unfold groupKey at hkey
  split at hkey
  · next site path hsite' hpath =>
    cases hkey
    rw [hsite', Option.any_some] at hsite
    simp [reads, hevent, hsite, hday]
  · cases hkey

/-- **A day after its rollup.** The aggregates a report reads for it are those of the groups of its
page views. -/
theorem aggregatesOn_rollup (hvalid : ∀ e ∈ db.events, validFirstParty db.sites e = true)
    (hfresh : ∀ k a, db.aggregates.get k = some a → k.eventDate = d →
      0 < countKey db.sites k db.events) (scope : Scope) (hpast : d < day now)
    (hexp : aggregateCutoff settings now ≤ d) :
    (aggregatesOn (rollupAndPurge db settings now).1 scope d).Perm
      ((groupRows groupKey (pageViewsOn db scope d)).map (fun g => (g.1, aggregateOf g.2))) := by
  have hget : ∀ k : AggregateKey, k.eventDate = d →
      (rollupAndPurge db settings now).1.aggregates.get k
        = if 0 < countKey db.sites k db.events then some (aggregateOf (members db.sites k db.events))
          else none := by
    rintro k rfl
    rw [get_rollupAndPurge, if_neg (not_lt.mpr hexp)]
    by_cases hpos : 0 < countKey db.sites k db.events
    · rw [if_pos ⟨hpast, hpos⟩, if_pos hpos]
    · rw [if_neg (fun h => hpos h.2), if_neg hpos]
      split
      · rfl
      cases hold : db.aggregates.get k with
      | none => rfl
      | some a => exact absurd (hfresh k a hold rfl) hpos
  have hnodup : (aggregatesOn (rollupAndPurge db settings now).1 scope d).Nodup := by
    have hkeys := (rollupAndPurge db settings now).1.aggregates.nodup
    rw [← Table.rows_keys] at hkeys
    exact hkeys.of_map.filter _
  have hnodup' : ((groupRows groupKey (pageViewsOn db scope d)).map
      (fun g => (g.1, aggregateOf g.2))).Nodup := by
    refine List.Nodup.of_map Prod.fst ?_
    rw [List.map_map]
    exact groupRows_nodup _ _
  refine (List.perm_ext_iff_of_nodup hnodup hnodup').mpr ?_
  rintro ⟨k, a⟩
  rw [aggregatesOn, List.mem_filter, Table.mem_rows, List.mem_map]
  constructor
  · rintro ⟨hrow, hreads⟩
    have hreads' : reads scope d k = true := hreads
    have hdate : k.eventDate = d := by
      simp only [reads, Bool.and_eq_true, decide_eq_true_eq] at hreads'
      exact hreads'.2
    rw [hget k hdate] at hrow
    split at hrow
    · next hpos =>
      cases hrow
      rw [← members_length, members_eq_group hvalid hreads', group_length] at hpos
      exact ⟨(k, members db.sites k db.events),
        mem_groupRows.mpr ⟨members_eq_group hvalid hreads', hpos⟩, rfl⟩
    · cases hrow
  · rintro ⟨⟨k', rows⟩, hg, heq⟩
    cases heq
    obtain ⟨rfl, hpos⟩ := mem_groupRows.mp hg
    obtain ⟨e, he, hkey⟩ := List.countP_pos_iff.mp hpos
    have hreads := reads_of_pageView he (of_decide_eq_true hkey)
    have hdate : k'.eventDate = d := by
      simp only [reads, Bool.and_eq_true, decide_eq_true_eq] at hreads
      exact hreads.2
    refine ⟨?_, hreads⟩
    rw [← group_length, ← members_eq_group hvalid hreads, members_length] at hpos
    rw [hget k' hdate, if_pos hpos, members_eq_group hvalid hreads]

/-! ## Agreement -/

variable {views : Nat}

/-- The session count of a point is not suppressed. -/
def SeriesPoint.Discloses (p : SeriesPoint) : Prop := p.consentedSessionDays.isSome = true

instance (p : SeriesPoint) : Decidable p.Discloses :=
  inferInstanceAs (Decidable (p.consentedSessionDays.isSome = true))

/-- The distinct sessions with a page view on the day. -/
def sessionsOn (db : Db) (scope : Scope) (d : Day) : Nat :=
  countDistinct AnalyticsEvent.session (pageViewsOn db scope d)

/-- The two points are the same, and neither discloses a count that fewer sessions than the
threshold make up. -/
def Agree (db : Db) (scope : Scope) (d : Day) (p q : SeriesPoint) : Prop :=
  p = q ∧ (p.Discloses → lowSampleThreshold ≤ sessionsOn db scope d) ∧
    (q.Discloses → lowSampleThreshold ≤ sessionsOn db scope d)

instance (db : Db) (scope : Scope) (d : Day) (p q : SeriesPoint) : Decidable (Agree db scope d p q) :=
  inferInstanceAs (Decidable (_ ∧ _ ∧ _))

/-- No session has page views of the day under two keys. -/
def OneKeyEach (db : Db) (scope : Scope) (d : Day) : Prop :=
  ∀ e ∈ pageViewsOn db scope d, ∀ e' ∈ pageViewsOn db scope d,
    e.session.isSome = true → e.session = e'.session → groupKey e = groupKey e'

/-- The distinct pairs of a key and a session with a page view on the day. -/
def sessionKeysOn (db : Db) (scope : Scope) (d : Day) : Nat :=
  countDistinct (keyed groupKey AnalyticsEvent.session) (pageViewsOn db scope d)

theorem pointOf_disclosed_iff {sessions : Nat} :
    (pointOf d views sessions).Discloses ↔ lowSampleThreshold ≤ sessions := by
  rw [SeriesPoint.Discloses, pointOf]
  split
  · next h => simp [h]
  · next h => simp [h]

/-- Two counts of which one is larger, but positive only with the other, show the same exactly
when they are equal or both below the threshold. -/
theorem pointOf_agree_iff {few many : Nat} (hle : few ≤ many) (hpos : 0 < many ↔ 0 < few) :
    (pointOf d views few = pointOf d views many ∧
        (lowSampleThreshold ≤ few → lowSampleThreshold ≤ few) ∧
        (lowSampleThreshold ≤ many → lowSampleThreshold ≤ few)) ↔
      few = many ∨ many < lowSampleThreshold := by
  constructor
  · rintro ⟨heq, _, hmany⟩
    by_cases hlow : many < lowSampleThreshold
    · exact .inr hlow
    have hthreshold := not_lt.mp hlow
    have hcounts := congrArg SeriesPoint.consentedSessionDays heq
    simp only [pointOf, if_pos hthreshold, if_pos (hmany hthreshold)] at hcounts
    exact .inl (Option.some.inj hcounts)
  · rintro (rfl | hlow)
    · exact ⟨rfl, id, id⟩
    · refine ⟨?_, id, fun h => absurd hlow (not_lt.mpr h)⟩
      have hlow' := hle.trans_lt hlow
      simp [pointOf, hlow, hlow', not_le.mpr hlow, not_le.mpr hlow', hpos]

/-- **Raw and rolled-up days.** The point of a past day is the same before and after the day is
rolled up, and discloses nothing about fewer sessions than the threshold, exactly when no session
has page views under two keys on that day or when there are fewer pairs of a session and a key
than the threshold. -/
theorem pageViewSeries_agree {db : Db} (scope : Scope) {d : Day}
    (hvalid : ∀ e ∈ db.events, validFirstParty db.sites e = true)
    (hfresh : ∀ k a, db.aggregates.get k = some a → k.eventDate = d →
      0 < countKey db.sites k db.events)
    {days days' : Nat} {settings settings' rolled : Settings} {now now' rolledAt : Time}
    (hraw : seriesStart days now ≤ d ∧ d < day now ∧ rawCutoff settings now ≤ d)
    (hrolled : d < day rolledAt ∧ aggregateCutoff rolled rolledAt ≤ d)
    (haggregated : seriesStart days' now' ≤ d ∧ d < rawCutoff settings' now') :
    (∀ p ∈ pageViewSeries db scope days settings now, ∀ q ∈
        pageViewSeries (rollupAndPurge db rolled rolledAt).1 scope days' settings' now',
        p.date = d → q.date = d → Agree db scope d p q) ↔
      OneKeyEach db scope d ∨ sessionKeysOn db scope d < lowSampleThreshold := by
  have hkeys : ∀ e ∈ pageViewsOn db scope d, (groupKey e).isSome = true := fun e he =>
    groupKey_of_valid (hvalid e (List.mem_filter.mp he).1)
  have hpast' : d < day now' := haggregated.2.trans_le (Nat.sub_le _ _)
  have hperm := aggregatesOn_rollup hvalid hfresh scope hrolled.1 hrolled.2
  have hviews : ((aggregatesOn (rollupAndPurge db rolled rolledAt).1 scope d).map
      (·.2.eventCount)).sum = (pageViewsOn db scope d).length := by
    have hall : ((pageViewsOn db scope d).filterMap groupKey).length
        = (pageViewsOn db scope d).length := List.filterMap_length_eq_length.mpr hkeys
    rw [(hperm.map (fun r => r.2.eventCount)).sum_eq, List.map_map, ← hall,
      ← sum_length_groupRows]
    rfl
  have hsessions : ((aggregatesOn (rollupAndPurge db rolled rolledAt).1 scope d).map
      (·.2.sessionDays)).sum = sessionKeysOn db scope d := by
    rw [(hperm.map (fun r => r.2.sessionDays)).sum_eq, List.map_map, sessionKeysOn,
      ← sum_countDistinct_groupRows]
    rfl
  have hpoint : ∀ p, p ∈ pageViewSeries db scope days settings now ∧ p.date = d ↔
      p = pointOf d (pageViewsOn db scope d).length (sessionsOn db scope d) := by
    intro p
    rw [mem_pageViewSeries hraw.1 hraw.2.1.le, seriesPoint_past db scope hraw.1 hraw.2.1,
      if_neg (not_lt.mpr hraw.2.2), sessionsOn]
  have hpoint' : ∀ q, q ∈ pageViewSeries (rollupAndPurge db rolled rolledAt).1 scope days'
      settings' now' ∧ q.date = d ↔
      q = pointOf d (pageViewsOn db scope d).length (sessionKeysOn db scope d) := by
    intro q
    rw [mem_pageViewSeries haggregated.1 hpast'.le, seriesPoint_past _ scope haggregated.1 hpast',
      if_pos haggregated.2, hviews, hsessions]
  have hagree : Agree db scope d
      (pointOf d (pageViewsOn db scope d).length (sessionsOn db scope d))
      (pointOf d (pageViewsOn db scope d).length (sessionKeysOn db scope d)) ↔
      OneKeyEach db scope d ∨ sessionKeysOn db scope d < lowSampleThreshold := by
    rw [Agree, pointOf_disclosed_iff, pointOf_disclosed_iff, OneKeyEach,
      ← countDistinct_eq_keyed_iff hkeys]
    exact pointOf_agree_iff (countDistinct_le_keyed AnalyticsEvent.session hkeys)
      (countDistinct_keyed_pos hkeys)
  rw [← hagree]
  constructor
  · intro h
    obtain ⟨hp, hdate⟩ := (hpoint _).mpr rfl
    obtain ⟨hq, hdate'⟩ := (hpoint' _).mpr rfl
    exact h _ hp _ hq hdate hdate'
  · intro h p hp q hq hdate hdate'
    rw [(hpoint p).mp ⟨hp, hdate⟩, (hpoint' q).mp ⟨hq, hdate'⟩]
    exact h

/-! ## Five page views -/

/-- A site with these page views on the day 20100. -/
def viewed (views : List (String × String)) : Db where
  sites := fun site => if site = 1 then some 1 else none
  events := views.map (fun v =>
    ⟨1, some 1, "page_view", some v.1, some v.2, .firstParty, utcMidnight 20100⟩)
  aggregates := Table.empty
  revoked := Table.empty

def fiveVisitors : Db := viewed [("/", "a"), ("/", "b"), ("/", "c"), ("/", "d"), ("/", "e")]

def fivePages : Db := viewed [("/", "a"), ("/b", "a"), ("/c", "a"), ("/d", "a"), ("/e", "a")]

/-- Five visitors of one page are five sessions on both ways. -/
theorem pageViewSeries_agree_fiveVisitors :
    ∃ p ∈ pageViewSeries fiveVisitors ⟨none, none⟩ 2 (keepRaw 7 (by decide)) (utcMidnight 20101),
      ∃ q ∈ pageViewSeries (rollupAndPurge fiveVisitors (keepRaw 7 (by decide))
          (utcMidnight 20110)).1 ⟨none, none⟩ 11 (keepRaw 7 (by decide)) (utcMidnight 20110),
        p.date = 20100 ∧ q.date = 20100 ∧ Agree fiveVisitors ⟨none, none⟩ 20100 p q := by
  have hraw : ∃ p ∈ pageViewSeries fiveVisitors ⟨none, none⟩ 2 (keepRaw 7 (by decide))
      (utcMidnight 20101), p.date = 20100 := by decide +kernel
  have hrolled : ∃ q ∈ pageViewSeries (rollupAndPurge fiveVisitors (keepRaw 7 (by decide))
      (utcMidnight 20110)).1 ⟨none, none⟩ 11 (keepRaw 7 (by decide)) (utcMidnight 20110),
        q.date = 20100 := by decide +kernel
  obtain ⟨p, hp, hpdate⟩ := hraw
  obtain ⟨q, hq, hqdate⟩ := hrolled
  refine ⟨p, hp, q, hq, hpdate, hqdate, ?_⟩
  refine (pageViewSeries_agree ⟨none, none⟩ (by decide +kernel) (fun k a ha => by cases ha)
    (by decide +kernel) (by decide +kernel) (by decide +kernel)).mpr (.inl ?_) p hp q hq hpdate hqdate
  unfold OneKeyEach
  decide +kernel

/-- One visitor of five pages is one session, and five of them once the day is rolled up. -/
theorem pageViewSeries_agree_fivePages :
    ¬ ∀ p ∈ pageViewSeries fivePages ⟨none, none⟩ 2 (keepRaw 7 (by decide)) (utcMidnight 20101),
      ∀ q ∈ pageViewSeries (rollupAndPurge fivePages (keepRaw 7 (by decide))
          (utcMidnight 20110)).1 ⟨none, none⟩ 11 (keepRaw 7 (by decide)) (utcMidnight 20110),
        p.date = 20100 → q.date = 20100 → Agree fivePages ⟨none, none⟩ 20100 p q := by
  decide +kernel

end MegaPanel.Telemetry

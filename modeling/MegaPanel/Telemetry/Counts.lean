import MegaPanel.Telemetry.Model

set_option autoImplicit false

/-! # What a rollup counts

The members of an aggregate are the valid events with its tenant, site, day, event and path. A
rollup writes for each key in its range the counts of its members, if there are any, and leaves
the other aggregates alone (`get_rollupRows`). Midnights cut the time between days, so a bound on
the time of an event is a bound on its day.
-/

namespace MegaPanel.Telemetry

open MegaPanel.Lib

/-! ## Days -/

variable {t : Time}

theorem lt_utcMidnight {d : Day} : t < utcMidnight d ↔ day t < d := by
  have hdays : days d = d * days 1 := by
    simp only [days, seconds]
    ring
  rw [utcMidnight, hdays, day]
  exact (Nat.div_lt_iff_lt_mul (by decide)).symm

theorem day_mono {s : Time} (h : s ≤ t) : day s ≤ day t := Nat.div_le_div_right h

/-! ## Members -/

variable {sites : SiteId → Option TenantId} {k : AggregateKey} {events : List AnalyticsEvent}
  {e : AnalyticsEvent}

/-- The event is valid and has this key. -/
def isMember (sites : SiteId → Option TenantId) (k : AggregateKey) (e : AnalyticsEvent) : Bool :=
  validFirstParty sites e && decide (groupKey e = some k)

def members (sites : SiteId → Option TenantId) (k : AggregateKey) (events : List AnalyticsEvent) :
    List AnalyticsEvent := events.filter (isMember sites k)

/-- The number of valid events with this key. -/
def countKey (sites : SiteId → Option TenantId) (k : AggregateKey)
    (events : List AnalyticsEvent) : Nat := events.countP (isMember sites k)

theorem members_length (sites : SiteId → Option TenantId) (k : AggregateKey)
    (events : List AnalyticsEvent) :
    (members sites k events).length = countKey sites k events :=
  List.countP_eq_length_filter.symm

@[simp] theorem countKey_nil (sites : SiteId → Option TenantId) (k : AggregateKey) :
    countKey sites k [] = 0 := rfl

@[simp] theorem countKey_append (sites : SiteId → Option TenantId) (k : AggregateKey)
    (xs ys : List AnalyticsEvent) :
    countKey sites k (xs ++ ys) = countKey sites k xs + countKey sites k ys :=
  List.countP_append

theorem countKey_pos : 0 < countKey sites k events ↔ ∃ e ∈ events, isMember sites k e = true :=
  List.countP_pos_iff

theorem groupKey_eq_some (h : groupKey e = some k) :
    e.tenantId = k.tenantId ∧ e.siteId = some k.siteId ∧ day e.createdAt = k.eventDate := by
  unfold groupKey at h
  split at h
  · next hsite hpath =>
    cases h
    exact ⟨rfl, hsite, rfl⟩
  · cases h

theorem isMember_day (h : isMember sites k e = true) : day e.createdAt = k.eventDate :=
  (groupKey_eq_some (of_decide_eq_true (Bool.and_eq_true_iff.mp h).2)).2.2

/-- Events that are removed by a condition on which no member depends were no members. -/
theorem countKey_filter {p : AnalyticsEvent → Bool}
    (h : ∀ e ∈ events, isMember sites k e = true → p e = true) :
    countKey sites k (events.filter p) = countKey sites k events := by
  rw [countKey, List.countP_filter]
  refine List.countP_congr (fun e he => ?_)
  rw [Bool.and_eq_true_iff]
  exact ⟨fun hmember => hmember.1, fun hmember => ⟨hmember, h e he hmember⟩⟩

theorem countKey_partition (sites : SiteId → Option TenantId) (k : AggregateKey)
    (p : AnalyticsEvent → Bool) (events : List AnalyticsEvent) :
    countKey sites k (events.filter (fun e => !p e)) + countKey sites k (events.filter p)
      = countKey sites k events := by
  induction events with
  | nil => rfl
  | cons e events ih =>
    rw [countKey, countKey, countKey] at ih ⊢
    cases hp : p e with
    | true =>
      rw [List.filter_cons_of_neg (by simp [hp]), List.filter_cons_of_pos hp, List.countP_cons,
        List.countP_cons]
      omega
    | false =>
      rw [List.filter_cons_of_pos (by simp [hp]), List.filter_cons_of_neg (by simp [hp]),
        List.countP_cons, List.countP_cons]
      omega

/-! ## The rows of a rollup -/

/-- The keys a rollup is restricted to. -/
def RollupFilter.admitsKey (f : RollupFilter) (k : AggregateKey) : Bool :=
  f.tenantId.all (fun tenant => decide (k.tenantId = tenant))
    && f.siteId.all (fun site => decide (k.siteId = site))
    && f.days.all (fun ds => decide (k.eventDate ∈ ds))

theorem RollupFilter.admits_eq {f : RollupFilter} (h : groupKey e = some k) :
    f.admits e = f.admitsKey k := by
  obtain ⟨htenant, hsite, hday⟩ := groupKey_eq_some h
  simp [RollupFilter.admits, RollupFilter.admitsKey, htenant, hsite, hday]

/-- A rollup before day `d` counts the aggregate. -/
def covers (d : Day) (f : RollupFilter) (k : AggregateKey) : Bool :=
  decide (k.eventDate < d) && f.admitsKey k

theorem group_rollup (sites : SiteId → Option TenantId) (d : Day) (f : RollupFilter)
    (events : List AnalyticsEvent) (k : AggregateKey) :
    group groupKey k (events.filter (fun e =>
        validFirstParty sites e && decide (e.createdAt < utcMidnight d) && f.admits e))
      = if covers d f k then members sites k events else [] := by
  have hkey : ∀ e : AnalyticsEvent, (decide (groupKey e = some k) &&
      (validFirstParty sites e && decide (e.createdAt < utcMidnight d) && f.admits e))
      = (isMember sites k e && covers d f k) := by
    intro e
    by_cases h : groupKey e = some k
    · have hlt : decide (e.createdAt < utcMidnight d) = decide (k.eventDate < d) :=
        decide_eq_decide.mpr (by rw [lt_utcMidnight, (groupKey_eq_some h).2.2])
      rw [RollupFilter.admits_eq h, hlt, isMember, covers]
      simp [h, Bool.and_assoc]
    · simp [isMember, h]
  rw [group, List.filter_filter, List.filter_congr (fun e _ => hkey e), members]
  cases covers d f k with
  | true | false => simp

/-- **The aggregates after a rollup.** A covered key with members gets their counts; every other
row is the one that was there. -/
theorem get_rollupRows (t : Table AggregateKey DailyAggregate)
    (sites : SiteId → Option TenantId) (d : Day) (f : RollupFilter)
    (events : List AnalyticsEvent) (k : AggregateKey) :
    (t.insertAll (rollupRows sites (utcMidnight d) f events)).get k
      = if covers d f k = true ∧ 0 < countKey sites k events then
          some (aggregateOf (members sites k events))
        else t.get k := by
  have hkeys : ∀ xs : List (AggregateKey × List AnalyticsEvent),
      (xs.map (fun g => (g.1, aggregateOf g.2))).map (·.1) = xs.map (·.1) := by
    intro xs
    rw [List.map_map]
    rfl
  have hnodup : ((rollupRows sites (utcMidnight d) f events).map (·.1)).Nodup := by
    rw [rollupRows, hkeys]
    exact groupRows_nodup _ _
  by_cases h : covers d f k = true ∧ 0 < countKey sites k events
  · rw [if_pos h]
    refine Table.get_insertAll_of_mem hnodup (List.mem_map.mpr
      ⟨(k, members sites k events), mem_groupRows.mpr ⟨?_, ?_⟩, rfl⟩) t
    · rw [group_rollup, if_pos h.1]
    · rw [← group_length, group_rollup, if_pos h.1, members_length]
      exact h.2
  · rw [if_neg h]
    refine Table.get_insertAll_of_notMem (fun hmem => h ?_) t
    rw [rollupRows, hkeys] at hmem
    obtain ⟨⟨k', rows⟩, hrows, rfl⟩ := List.mem_map.mp hmem
    have hpos := (mem_groupRows.mp hrows).2
    rw [← group_length, group_rollup] at hpos
    split at hpos
    · next hcovers => exact ⟨hcovers, members_length sites k' events ▸ hpos⟩
    · cases hpos

end MegaPanel.Telemetry

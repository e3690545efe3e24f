import MegaPanel.IndexSchedule.Progress

set_option autoImplicit false

/-! # The head of the queue

The sweep takes the first `limit` active schedules and then asks what each of them can do.
A schedule with nothing due, or one waiting for a publication or for a pending candidate,
stays active and stays at the head, so it takes the place of the schedules behind it at
every sweep.

`verdict` is what the checks of the loop body say of a schedule in the state before the
sweep. The theorem says when a sweep prepares a batch: one of the schedules it examines
passes, and none of them raises before its site has been given a candidate.
-/

namespace MegaPanel.IndexSchedule

open MegaPanel.Lib

/-- What the loop body will do with a schedule: leave it (or pause or complete it), raise, or
prepare a batch. -/
inductive Verdict
  | skip
  | raise
  | pass
  deriving DecidableEq

def verdict (now : Time) (db : Db) (id : ScheduleId) : Verdict :=
  match db.schedules.get id with
  | none => .skip
  | some schedule =>
    match minBatch (plannedItems now (db.items id)) with
    | none => .skip
    | some batchNumber =>
      if !priorBatchesArePublished db.builds (db.items id) batchNumber then .skip
      else if siteHasPendingCandidate db.builds schedule.siteId then .skip
      else
        match validateBatch db schedule (batchItems now (db.items id) batchNumber) with
        | none => .raise
        | some (some _) => .skip
        | some none => if authorsCurrent db schedule then .pass else .raise

/-! ## The loop body -/

/-- A write that concerns one schedule and its items only. -/
structure OwnWrite (db : Db) (id : ScheduleId) (d : Db) : Prop where
  schedules : ∀ j, j ≠ id → d.schedules.get j = db.schedules.get j
  items : ∀ j, j ≠ id → d.items j = db.items j
  drafts : d.drafts = db.drafts
  projects : d.projects = db.projects
  sites : d.sites = db.sites

theorem prepareBatch_cases (now : Time) (db : Db) (id : ScheduleId) (schedule : Schedule)
    (batchNumber : Nat) :
    if authorsCurrent db schedule then
      ∃ d p build, prepareBatch now db id schedule batchNumber = some (d, some p) ∧
        OwnWrite db id d ∧ build.status = .queued ∧ build.siteId = schedule.siteId ∧
        d.builds = db.builds.set db.nextBuild build ∧ d.nextBuild = db.nextBuild + 1
    else prepareBatch now db id schedule batchNumber = none := by
  unfold authorsCurrent prepareBatch
  cases db.sites schedule.siteId with
  | none => simp
  | some site =>
    cases hauthors : site.authorsCurrent with
    | false => simp [hauthors]
    | true =>
      simp only [Option.any_some, hauthors, if_true, Bool.not_true, Bool.false_eq_true,
        if_false]
      refine ⟨_, _, batchBuild now schedule site, rfl, ?_, rfl, rfl, rfl, rfl⟩
      exact ⟨fun _ _ => rfl, fun j hj => Function.update_of_ne hj .., rfl, rfl, rfl⟩

/-- **The loop body follows the verdict.** -/
theorem sweepSchedule_verdict (now : Time) (db : Db) (id : ScheduleId) :
    match verdict now db id with
    | .raise => sweepSchedule now db id = none
    | .skip => ∃ d, sweepSchedule now db id = some (d, none) ∧ OwnWrite db id d ∧
        d.builds = db.builds ∧ d.nextBuild = db.nextBuild
    | .pass => ∃ d p build schedule, sweepSchedule now db id = some (d, some p) ∧
        OwnWrite db id d ∧ db.schedules.get id = some schedule ∧ build.status = .queued ∧
        build.siteId = schedule.siteId ∧
        d.builds = db.builds.set db.nextBuild build ∧ d.nextBuild = db.nextBuild + 1 := by
  have hsame : OwnWrite db id db := ⟨fun _ _ => rfl, fun _ _ => rfl, rfl, rfl, rfl⟩
  unfold verdict sweepSchedule
  cases hschedule : db.schedules.get id with
  | none => exact ⟨db, rfl, hsame, rfl, rfl⟩
  | some schedule =>
    dsimp only
    cases minBatch (plannedItems now (db.items id)) with
    | none =>
      dsimp only
      split
      · refine ⟨_, rfl, ?_, rfl, rfl⟩
        exact ⟨fun j hj => Table.get_set_ne _ hj _, fun _ _ => rfl, rfl, rfl, rfl⟩
      · exact ⟨db, rfl, hsame, rfl, rfl⟩
    | some batchNumber =>
      dsimp only
      cases priorBatchesArePublished db.builds (db.items id) batchNumber with
      | false => exact ⟨db, rfl, hsame, rfl, rfl⟩
      | true =>
        cases siteHasPendingCandidate db.builds schedule.siteId with
        | true => exact ⟨db, rfl, hsame, rfl, rfl⟩
        | false =>
          cases validateBatch db schedule (batchItems now (db.items id) batchNumber) with
          | none => rfl
          | some reason =>
            cases reason with
            | some reason =>
              refine ⟨_, rfl, ?_, rfl, rfl⟩
              exact ⟨fun j hj => Table.get_set_ne _ hj _,
                fun j hj => Function.update_of_ne hj .., rfl, rfl, rfl⟩
            | none =>
              have hprepare := prepareBatch_cases now db id schedule batchNumber
              cases hauthors : authorsCurrent db schedule with
              | false => simpa [hauthors] using hprepare
              | true =>
                rw [hauthors, if_pos rfl] at hprepare
                obtain ⟨d, p, build, hd, hown, hq, hsite, hb, hn⟩ := hprepare
                exact ⟨d, p, build, schedule, hd, hown, rfl, hq, hsite, hb, hn⟩

/-! ## What the schedules before have done -/

variable {siteId : SiteId} {db d : Db} {now : Time} {l : List ScheduleId} {prepared : List Prepared}
  {id : ScheduleId} {schedule : Schedule}

theorem siteHasPendingCandidate_iff {builds : Table BuildId Build} :
    siteHasPendingCandidate builds siteId = true ↔
      ∃ id build, builds.get id = some build ∧ build.siteId = siteId ∧
        (build.status = .queued ∨ build.status = .running) := by
  simp only [siteHasPendingCandidate, List.any_eq_true, Prod.exists, Bool.and_eq_true,
    Bool.or_eq_true, decide_eq_true_eq, Table.mem_rows]

/-- One of the schedules `l` has been given a candidate for the site. -/
def Served (now : Time) (db : Db) (l : List ScheduleId) (siteId : SiteId) : Prop :=
  ∃ r ∈ l, ∃ schedule, db.schedules.get r = some schedule ∧ schedule.siteId = siteId ∧
    verdict now db r = .pass

/-- The state `d` of a sweep that started in `db` and has examined the schedules `l`. -/
structure Swept (now : Time) (db : Db) (l : List ScheduleId) (d : Db) (prepared : List Prepared) :
    Prop where
  schedules : ∀ id, id ∉ l → d.schedules.get id = db.schedules.get id
  items : ∀ id, id ∉ l → d.items id = db.items id
  drafts : d.drafts = db.drafts
  projects : d.projects = db.projects
  sites : d.sites = db.sites
  next_le : db.nextBuild ≤ d.nextBuild
  build_lt : ∀ id, (d.builds.get id).isSome → id < d.nextBuild
  old : ∀ id, id < db.nextBuild → d.builds.get id = db.builds.get id
  new : ∀ id build, db.nextBuild ≤ id → d.builds.get id = some build →
    build.status = .queued ∧ Served now db l build.siteId
  served : ∀ siteId, Served now db l siteId → siteHasPendingCandidate d.builds siteId = true
  prepared : prepared ≠ [] ↔ ∃ r ∈ l, verdict now db r = .pass

theorem Swept.start (now : Time) (hwf : db.Wf) : Swept now db [] db [] where
  schedules := fun _ _ => rfl
  items := fun _ _ => rfl
  drafts := rfl
  projects := rfl
  sites := rfl
  next_le := le_rfl
  build_lt := hwf.build_lt
  old := fun _ _ => rfl
  new := fun id build hid hget => by
    have hlt := hwf.build_lt id (by rw [hget]; rfl)
    exact absurd hid (Nat.not_le.mpr hlt)
  served := by
    rintro siteId ⟨r, hr, -⟩
    cases hr
  prepared := by simp

/-- The check of the earlier batches reads builds that were there before the sweep. -/
theorem Swept.prior (hwf : db.Wf) (h : Swept now db l d prepared) (id : ScheduleId)
    (nextBatch : Nat) :
    priorBatchesArePublished d.builds (db.items id) nextBatch
      = priorBatchesArePublished db.builds (db.items id) nextBatch := by
  have hold : ∀ b ∈ candidateIds (db.items id) nextBatch,
      (db.builds.get b).isSome ∧ d.builds.get b = db.builds.get b := by
    intro b hb
    obtain ⟨item, hitem, -, hcandidate⟩ := mem_candidateIds.mp hb
    have hsome := hwf.candidate id item b hitem hcandidate
    exact ⟨hsome, h.old b (hwf.build_lt b hsome)⟩
  rw [Bool.eq_iff_iff, priorBatchesArePublished_eq (fun b hb => (hold b hb).1),
    priorBatchesArePublished_eq (fun b hb => by rw [(hold b hb).2]; exact (hold b hb).1)]
  refine and_congr_right (fun _ => forall₂_congr (fun b hb => ?_))
  rw [(hold b hb).2]

theorem Swept.pending (hwf : db.Wf) (h : Swept now db l d prepared) (siteId : SiteId) :
    siteHasPendingCandidate d.builds siteId = true ↔
      siteHasPendingCandidate db.builds siteId = true ∨ Served now db l siteId := by
  constructor
  · intro hp
    obtain ⟨id, build, hget, hsite, hstatus⟩ := siteHasPendingCandidate_iff.mp hp
    by_cases hid : id < db.nextBuild
    · left
      exact siteHasPendingCandidate_iff.mpr ⟨id, build, (h.old id hid) ▸ hget, hsite, hstatus⟩
    · right
      obtain ⟨-, hserved⟩ := h.new id build (Nat.le_of_not_lt hid) hget
      exact hsite ▸ hserved
  · rintro (hp | hserved)
    · obtain ⟨id, build, hget, hrest⟩ := siteHasPendingCandidate_iff.mp hp
      have hlt := hwf.build_lt id (by rw [hget]; rfl)
      exact siteHasPendingCandidate_iff.mpr ⟨id, build, (h.old id hlt).trans hget, hrest⟩
    · exact h.served siteId hserved

theorem checkItems_congr (hdrafts : d.drafts = db.drafts) (schedule : Schedule) (pages : List Page)
    (items : List Item) :
    checkItems d schedule pages items = checkItems db schedule pages items := by
  induction items with
  | nil => rfl
  | cons item rest ih =>
    have hone : checkItem d schedule pages item = checkItem db schedule pages item := by
      simp only [checkItem, hdrafts]
    simp only [checkItems, hone, ih]

theorem validateBatch_congr (hdrafts : d.drafts = db.drafts) (hprojects : d.projects = db.projects)
    (hsites : d.sites = db.sites) (schedule : Schedule) (items : List Item) :
    validateBatch d schedule items = validateBatch db schedule items := by
  simp only [validateBatch, hprojects, hsites, checkItems_congr hdrafts]

/-- A schedule the sweep comes to is judged as in the state before the sweep, unless its site
has been given a candidate: then it is skipped. -/
theorem Swept.verdict (hwf : db.Wf) (h : Swept now db l d prepared) (hid : id ∉ l)
    (hschedule : db.schedules.get id = some schedule) :
    (Served now db l schedule.siteId → IndexSchedule.verdict now d id = .skip) ∧
    (¬ Served now db l schedule.siteId →
      IndexSchedule.verdict now d id = IndexSchedule.verdict now db id) := by
  have hpending := h.pending hwf schedule.siteId
  refine ⟨fun hserved => ?_, fun hserved => ?_⟩
  · have hp := hpending.mpr (.inr hserved)
    simp only [IndexSchedule.verdict, h.schedules id hid, hschedule, h.items id hid, hp, if_true]
    split
    · rfl
    · split <;> rfl
  · have hp : siteHasPendingCandidate d.builds schedule.siteId
        = siteHasPendingCandidate db.builds schedule.siteId := by
      rw [Bool.eq_iff_iff, hpending, or_iff_left hserved]
    simp only [IndexSchedule.verdict, h.schedules id hid, hschedule, h.items id hid, hp,
      h.prior hwf, validateBatch_congr h.drafts h.projects h.sites, authorsCurrent, h.sites]
    rfl

/-! ## The loop -/

variable {d' : Db}

theorem Served.snoc : Served now db (l ++ [id]) siteId ↔ Served now db l siteId ∨
      ∃ schedule, db.schedules.get id = some schedule ∧ schedule.siteId = siteId ∧
        IndexSchedule.verdict now db id = .pass := by
  simp only [Served, List.mem_append, List.mem_singleton, or_and_right, exists_or,
    exists_eq_left]

/-- A schedule that writes no build, and gives no site a candidate it did not have. -/
theorem Swept.skip (h : Swept now db l d prepared) (hown : OwnWrite d id d')
    (hbuilds : d'.builds = d.builds) (hnext : d'.nextBuild = d.nextBuild)
    (hserved : ∀ schedule, db.schedules.get id = some schedule →
      IndexSchedule.verdict now db id = .pass → Served now db l schedule.siteId) :
    Swept now db (l ++ [id]) d' prepared := by
  have hsame : ∀ siteId, Served now db (l ++ [id]) siteId ↔ Served now db l siteId := by
    intro siteId
    rw [Served.snoc, or_iff_left_iff_imp]
    rintro ⟨schedule, hschedule, rfl, hpass⟩
    exact hserved schedule hschedule hpass
  refine
    { schedules := fun j hj => ?_, items := fun j hj => ?_, drafts := hown.drafts.trans h.drafts
      projects := hown.projects.trans h.projects, sites := hown.sites.trans h.sites
      next_le := hnext ▸ h.next_le, build_lt := ?_, old := ?_, new := ?_, served := ?_
      prepared := ?_ }
  · rw [List.mem_append, List.mem_singleton, not_or] at hj
    rw [hown.schedules j hj.2, h.schedules j hj.1]
  · rw [List.mem_append, List.mem_singleton, not_or] at hj
    rw [hown.items j hj.2, h.items j hj.1]
  · rw [hbuilds, hnext]
    exact h.build_lt
  · rw [hbuilds]
    exact h.old
  · intro b build hb hget
    rw [hbuilds] at hget
    rw [hsame]
    exact h.new b build hb hget
  · intro siteId hs
    rw [hbuilds]
    exact h.served siteId ((hsame siteId).mp hs)
  · rw [h.prepared]
    constructor
    · rintro ⟨r, hr, hpass⟩
      exact ⟨r, List.mem_append_left _ hr, hpass⟩
    · rintro ⟨r, hr, hpass⟩
      rcases List.mem_append.mp hr with hr | hr
      · exact ⟨r, hr, hpass⟩
      rw [List.mem_singleton.mp hr] at hpass
      cases hschedule : db.schedules.get id with
      | none =>
        unfold IndexSchedule.verdict at hpass
        rw [hschedule] at hpass
        cases hpass
      | some schedule =>
        obtain ⟨r', hr', -, -, -, hpass'⟩ := hserved schedule hschedule hpass
        exact ⟨r', hr', hpass'⟩

/-- A schedule that prepares a batch. -/
theorem Swept.pass (h : Swept now db l d prepared) (hschedule : db.schedules.get id = some schedule)
    (hpass : IndexSchedule.verdict now db id = .pass) (hown : OwnWrite d id d') {build : Build}
    (hqueued : build.status = .queued) (hsite : build.siteId = schedule.siteId)
    (hbuilds : d'.builds = d.builds.set d.nextBuild build) (hnext : d'.nextBuild = d.nextBuild + 1)
    (p : Prepared) : Swept now db (l ++ [id]) d' (prepared ++ [p]) := by
  have hmine : Served now db (l ++ [id]) schedule.siteId :=
    Served.snoc.mpr (.inr ⟨schedule, hschedule, rfl, hpass⟩)
  refine
    { schedules := fun j hj => ?_, items := fun j hj => ?_, drafts := hown.drafts.trans h.drafts
      projects := hown.projects.trans h.projects, sites := hown.sites.trans h.sites
      next_le := hnext ▸ Nat.le_succ_of_le h.next_le, build_lt := ?_, old := ?_, new := ?_
      served := ?_, prepared := ?_ }
  · rw [List.mem_append, List.mem_singleton, not_or] at hj
    rw [hown.schedules j hj.2, h.schedules j hj.1]
  · rw [List.mem_append, List.mem_singleton, not_or] at hj
    rw [hown.items j hj.2, h.items j hj.1]
  · intro b hb
    rw [hbuilds, Table.get_set] at hb
    rw [hnext]
    split at hb
    · next heq =>
      subst heq
      exact Nat.lt_succ_self _
    · exact Nat.lt_succ_of_lt (h.build_lt b hb)
  · intro b hb
    rw [hbuilds, Table.get_set_ne _ (Nat.ne_of_lt (Nat.lt_of_lt_of_le hb h.next_le))]
    exact h.old b hb
  · intro b row hb hget
    rw [hbuilds, Table.get_set_eq_some] at hget
    rcases hget with ⟨-, rfl⟩ | ⟨-, hget⟩
    · exact ⟨hqueued, hsite ▸ hmine⟩
    · obtain ⟨hq, hserved⟩ := h.new b row hb hget
      exact ⟨hq, Served.snoc.mpr (.inl hserved)⟩
  · intro siteId hserved
    rw [siteHasPendingCandidate_iff, hbuilds]
    rcases Served.snoc.mp hserved with hserved | ⟨schedule', hschedule', rfl, -⟩
    · obtain ⟨b, row, hget, hrow⟩ := siteHasPendingCandidate_iff.mp (h.served siteId hserved)
      have hne : b ≠ d.nextBuild := Nat.ne_of_lt (h.build_lt b (by rw [hget]; rfl))
      exact ⟨b, row, (Table.get_set_ne _ hne _).trans hget, hrow⟩
    · rw [hschedule] at hschedule'
      cases hschedule'
      exact ⟨d.nextBuild, build, Table.get_set_self .., hsite, .inl hqueued⟩
  · refine iff_of_true (by simp) ⟨id, ?_, hpass⟩
    exact List.mem_append_right _ (List.mem_singleton.mpr rfl)

/-- **One schedule of the sweep**: it raises when the checks do and its site has no candidate
of this sweep, and otherwise the sweep goes on. -/
theorem Swept.step (hwf : db.Wf) (h : Swept now db l d prepared) (hid : id ∉ l) :
    (sweepSchedule now d id = none ∧ IndexSchedule.verdict now db id = .raise ∧
      ∃ schedule, db.schedules.get id = some schedule ∧ ¬ Served now db l schedule.siteId) ∨
    (∃ d' one, sweepSchedule now d id = some (d', one) ∧
      Swept now db (l ++ [id]) d' (prepared ++ one.toList) ∧
      (IndexSchedule.verdict now db id = .raise → ∀ schedule,
        db.schedules.get id = some schedule → Served now db l schedule.siteId)) := by
  have hbody := sweepSchedule_verdict now d id
  cases hschedule : db.schedules.get id with
  | none =>
    have hnone : d.schedules.get id = none := (h.schedules id hid).trans hschedule
    have hskip : IndexSchedule.verdict now d id = .skip := by
      unfold IndexSchedule.verdict
      rw [hnone]
    rw [hskip] at hbody
    obtain ⟨d', hd', hown, hb, hn⟩ := hbody
    refine .inr ⟨d', none, hd', ?_, fun _ _ hs => by cases hs⟩
    simpa using h.skip hown hb hn (fun _ hs => by rw [hschedule] at hs; cases hs)
  | some schedule =>
    obtain ⟨hserved, hfree⟩ := h.verdict hwf hid hschedule
    by_cases hs : Served now db l schedule.siteId
    · rw [hserved hs] at hbody
      obtain ⟨d', hd', hown, hb, hn⟩ := hbody
      have hall : ∀ s, db.schedules.get id = some s → Served now db l s.siteId := by
        intro s hget
        rw [hschedule] at hget
        exact Option.some.inj hget ▸ hs
      refine .inr ⟨d', none, hd', ?_, fun _ s hget => hall s (hschedule.trans hget)⟩
      simpa using h.skip hown hb hn (fun s hget _ => hall s hget)
    · have heq := hfree hs
      cases hv : IndexSchedule.verdict now db id with
      | raise =>
        rw [heq, hv] at hbody
        exact .inl ⟨hbody, rfl, schedule, rfl, hs⟩
      | skip =>
        rw [heq, hv] at hbody
        obtain ⟨d', hd', hown, hb, hn⟩ := hbody
        refine .inr ⟨d', none, hd', ?_, fun hraise => by cases hraise⟩
        simpa using h.skip hown hb hn (fun _ _ hpass => by rw [hv] at hpass; cases hpass)
      | pass =>
        rw [heq, hv] at hbody
        obtain ⟨d', p, build, schedule', hd', hown, hget, hq, hsite, hb, hn⟩ := hbody
        rw [h.schedules id hid, hschedule] at hget
        cases hget
        exact .inr ⟨d', some p, hd', h.pass hschedule hv hown hq hsite hb hn p,
          fun hraise => by cases hraise⟩

/-- Every schedule of `rest` whose checks raise comes after one, of `l` or of `rest`, that
has been given a candidate for the same site. -/
def NoneRaises (now : Time) (db : Db) (l rest : List ScheduleId) : Prop :=
  ∀ l₁ id l₂, rest = l₁ ++ id :: l₂ → ∀ schedule, db.schedules.get id = some schedule →
    verdict now db id = .raise → Served now db (l ++ l₁) schedule.siteId

theorem NoneRaises.cons {now : Time} {db : Db} {l rest : List ScheduleId} {id : ScheduleId} :
    NoneRaises now db l (id :: rest) ↔
      (∀ schedule, db.schedules.get id = some schedule → verdict now db id = .raise →
        Served now db l schedule.siteId) ∧ NoneRaises now db (l ++ [id]) rest := by
  constructor
  · intro h
    refine ⟨fun schedule hget hv => ?_, fun l₁ j l₂ heq schedule hget hv => ?_⟩
    · simpa using h [] id rest rfl schedule hget hv
    · simpa using h (id :: l₁) j l₂ (by rw [heq]; rfl) schedule hget hv
  · rintro ⟨hhead, htail⟩ l₁ j l₂ heq schedule hget hv
    cases l₁ with
    | nil =>
      rw [List.nil_append, List.cons.injEq] at heq
      obtain ⟨rfl, rfl⟩ := heq
      simpa using hhead schedule hget hv
    | cons i l₁ =>
      rw [List.cons_append, List.cons.injEq] at heq
      obtain ⟨rfl, rfl⟩ := heq
      simpa using htail l₁ j l₂ rfl schedule hget hv

/-- **The loop**: by induction on the schedules still to come. -/
theorem Swept.loop (hwf : db.Wf) (rest : List ScheduleId) :
    ∀ {d : Db} {l : List ScheduleId} {prepared : List Prepared},
      Swept now db l d prepared → (l ++ rest).Nodup →
      ((∃ d' p ps, sweepLoop now rest d prepared = some (d', p :: ps)) ↔
        (∃ r ∈ l ++ rest, IndexSchedule.verdict now db r = .pass) ∧ NoneRaises now db l rest) := by
  induction rest with
  | nil =>
    intro d l prepared h _
    have hnone : NoneRaises now db l [] := by
      intro l₁ id l₂ heq
      simp at heq
    rw [List.append_nil, ← h.prepared, and_iff_left hnone, sweepLoop]
    cases prepared with
    | nil => simp
    | cons p ps => simp
  | cons id rest ih =>
    intro d l prepared h hnodup
    have happ : l ++ id :: rest = (l ++ [id]) ++ rest := by simp
    have hid : id ∉ l := by
      intro hmem
      exact List.disjoint_of_nodup_append hnodup hmem (List.mem_cons_self ..)
    rw [NoneRaises.cons, sweepLoop]
    rcases h.step hwf hid with ⟨hnone, hraise, schedule, hschedule, hfree⟩ |
        ⟨d', one, hd', h', hok⟩
    · rw [hnone]
      refine iff_of_false ?_ (fun hall => hfree (hall.2.1 schedule hschedule hraise))
      rintro ⟨d', p, ps, hd'⟩
      cases hd'
    · rw [hd']
      dsimp only
      rw [happ] at hnodup ⊢
      rw [ih h' hnodup, and_iff_right (fun schedule hget hv => hok hv schedule hget)]

/-! ## The sweep -/

theorem examined_nodup (locked : List ScheduleId) (limit : Nat) (db : Db) :
    (examined locked limit db).Nodup := by
  refine List.Nodup.sublist (List.take_sublist _ _) ?_
  unfold activeSchedules
  refine ((List.perm_insertionSort _ _).map _).nodup_iff.mpr ?_
  refine List.Nodup.sublist (List.filter_sublist.map Prod.fst) ?_
  rw [Table.rows_keys]
  exact db.schedules.nodup

/-- **When a sweep prepares a batch**: one of the schedules within the limit passes its
checks, and none of them raises before its site has been given a candidate. -/
theorem sweep_prepares_iff (hwf : db.Wf) (locked : List ScheduleId) (limit : Nat) :
    (∃ db' p ps, prepareDueIndexScheduleBatches now locked limit db = some (db', p :: ps)) ↔
      (∃ id ∈ examined locked limit db, verdict now db id = .pass) ∧
        NoneRaises now db [] (examined locked limit db) := by
  have h := (Swept.start now hwf).loop hwf (examined locked limit db)
    (by rw [List.nil_append]; exact examined_nodup ..)
  rwa [List.nil_append] at h

/-- The schedule has a due batch that is valid, its earlier batches are published and its
site has no queued or running candidate. -/
structure Ready (now : Time) (db : Db) (id : ScheduleId) (schedule : Schedule) (batchNumber : Nat) :
    Prop where
  row : db.schedules.get id = some schedule
  active : schedule.state = .active
  due : minBatch (plannedItems now (db.items id)) = some batchNumber
  published : PublishedBefore db.builds (db.items id) batchNumber
  free : siteHasPendingCandidate db.builds schedule.siteId = false
  valid : validateBatch db schedule (batchItems now (db.items id) batchNumber) = some none

/-- **The head of the queue decides.** If some schedule is ready, then a sweep prepares a
batch: this holds exactly when, if some schedule is ready, one of the first `limit` active
schedules passes its own checks and none of them raises. -/
theorem head_decides {now : Time} {db : Db} (hwf : db.Wf) (locked : List ScheduleId)
    (limit : Nat) :
    ((∃ id schedule batchNumber, id ∉ locked ∧ Ready now db id schedule batchNumber) →
      ∃ db' p ps, prepareDueIndexScheduleBatches now locked limit db = some (db', p :: ps)) ↔
    ((∃ id schedule batchNumber, id ∉ locked ∧ Ready now db id schedule batchNumber) →
      (∃ id ∈ examined locked limit db, verdict now db id = .pass) ∧
        NoneRaises now db [] (examined locked limit db)) :=
  imp_congr_right (fun _ => sweep_prepares_iff hwf locked limit)

/-! ## The foreign keys -/

variable {one : Option Prepared}

theorem prepareBatch_wf {batchNumber : Nat} (hwf : db.Wf)
    (h : prepareBatch now db id schedule batchNumber = some (d, one)) : d.Wf := by
  unfold prepareBatch at h
  split at h
  · cases h
  split at h
  · cases h
  cases h
  constructor
  · intro b hb
    rw [Table.get_set] at hb
    split at hb
    · next heq =>
      subst heq
      exact Nat.lt_succ_self _
    · exact Nat.lt_succ_of_lt (hwf.build_lt b hb)
  · intro sid item b hitem hb
    have hkept : ∀ (build : Build) (b : BuildId), (db.builds.get b).isSome = true →
        ((db.builds.set db.nextBuild build).get b).isSome = true := by
      intro build b hsome
      rw [Table.get_set_ne _ (Nat.ne_of_lt (hwf.build_lt b hsome))]
      exact hsome
    dsimp only at hitem
    by_cases hsid : sid = id
    · subst hsid
      rw [Function.update_self, List.mem_map] at hitem
      obtain ⟨item', hitem', rfl⟩ := hitem
      split at hb
      · cases hb
        rw [Table.get_set_self]
        rfl
      · exact hkept _ b (hwf.candidate sid item' b hitem' hb)
    · rw [Function.update_of_ne hsid] at hitem
      exact hkept _ b (hwf.candidate sid item b hitem hb)

theorem pauseStaleSchedule_wf (hwf : db.Wf) (now : Time) (id : ScheduleId) (schedule : Schedule)
    (batchNumber : Nat) (reason : String) :
    (pauseStaleSchedule now db id schedule batchNumber reason).Wf := by
  refine ⟨hwf.build_lt, fun sid item b hitem hb => ?_⟩
  dsimp only [pauseStaleSchedule] at hitem
  by_cases hsid : sid = id
  · subst hsid
    rw [Function.update_self, List.mem_map] at hitem
    obtain ⟨item', hitem', rfl⟩ := hitem
    refine hwf.candidate sid item' b hitem' ?_
    split at hb <;> exact hb
  · rw [Function.update_of_ne hsid] at hitem
    exact hwf.candidate sid item b hitem hb

theorem sweepSchedule_wf (hwf : db.Wf) (h : sweepSchedule now db id = some (d, one)) : d.Wf := by
  unfold sweepSchedule at h
  cases hschedule : db.schedules.get id with
  | none =>
    rw [hschedule] at h
    cases h
    exact hwf
  | some schedule =>
    rw [hschedule] at h
    dsimp only at h
    split at h
    · split at h
      · cases h
        exact ⟨hwf.build_lt, hwf.candidate⟩
      · cases h
        exact hwf
    · split at h
      · cases h
        exact hwf
      · split at h
        · cases h
          exact hwf
        · split at h
          · cases h
          · cases h
            exact pauseStaleSchedule_wf hwf now id schedule _ _
          · exact prepareBatch_wf hwf h

theorem sweepLoop_wf (rest : List ScheduleId) :
    ∀ {db d : Db} {prepared prepared' : List Prepared}, db.Wf →
      sweepLoop now rest db prepared = some (d, prepared') → d.Wf := by
  induction rest with
  | nil =>
    intro db d prepared prepared' hwf h
    cases h
    exact hwf
  | cons id rest ih =>
    intro db d prepared prepared' hwf h
    unfold sweepLoop at h
    split at h
    · cases h
    · next db₁ one hone => exact ih (sweepSchedule_wf hwf hone) h

/-- A sweep keeps the foreign keys of the items. -/
theorem sweep_wf {locked : List ScheduleId} {limit : Nat} (hwf : db.Wf)
    (h : prepareDueIndexScheduleBatches now locked limit db = some (d, prepared)) : d.Wf :=
  sweepLoop_wf _ hwf h

/-! ## Runs -/

theorem noneRaises_of_all {rest : List ScheduleId}
    (h : rest.all (fun id => verdict now db id ≠ .raise) = true) (l : List ScheduleId) :
    NoneRaises now db l rest := by
  rintro l₁ id l₂ rfl schedule - hv
  have hid := List.all_eq_true.mp h id (by simp)
  rw [hv] at hid
  cases hid

theorem threePages_wf (batchSize : Nat) : (threePages batchSize).Wf where
  build_lt := fun id h => by cases h
  candidate := fun sid item id hitem hid => by
    simp only [threePages] at hitem
    split at hitem
    · simp only [scheduleItems, List.mem_map] at hitem
      obtain ⟨_, _, rfl⟩ := hitem
      cases hid
    · cases hitem

theorem head_decides_first :
    ∃ db' p ps, prepareDueIndexScheduleBatches 0 [] 1 (threePages 2) = some (db', p :: ps) := by
  refine (head_decides (threePages_wf 2) [] 1).mpr (fun _ => ⟨⟨0, ?_⟩, ?_⟩)
    ⟨0, dailySchedule 2, 1, by simp, ?_⟩
  · decide +kernel
  · exact noneRaises_of_all (by decide +kernel) []
  · exact
      { row := rfl
        active := rfl
        due := by decide +kernel
        published := publishedBefore_of_all (by decide +kernel)
        free := by decide +kernel
        valid := by decide +kernel }

/-- The three pages, and the schedule of another site with one page, two hours later. -/
def twoSites : Db :=
  let db := threePages 1
  { db with
    schedules := db.schedules.set 1
      { dailySchedule 1 with projectId := 2, siteId := 2, startsAt := hours 2 }
    items := Function.update db.items 1 (scheduleItems (hours 2) 24 1 [⟨"d", 3, "h3", "h3"⟩])
    drafts := Function.update db.drafts 3
      (some { tenantId := 1, projectId := 2, applied := true, contentHash := some "h3",
              page := some ("h3", some "d"), currentQa := true, qaPassed := true })
    projects := Function.update db.projects 2 (some 1)
    sites := Function.update db.sites 2
      (some { tenantId := 1, projectId := some 2, buildHash := none,
              pages := some [⟨"d", "h3"⟩], authorsCurrent := true }) }

theorem twoSites_wf : twoSites.Wf where
  build_lt := fun id h => by cases h
  candidate := fun sid item id hitem hid => by
    by_cases hsid : sid = 1
    · subst hsid
      simp only [twoSites, Function.update_self, scheduleItems, List.mem_map] at hitem
      obtain ⟨_, _, rfl⟩ := hitem
      cases hid
    · simp only [twoSites, Function.update_of_ne hsid] at hitem
      exact (threePages_wf 1).candidate sid item id hitem hid

/-- The database after a sweep with room for one schedule; the old one if it raises. -/
def afterSweep (now : Time) (db : Db) : Db :=
  match prepareDueIndexScheduleBatches now [] 1 db with
  | none => db
  | some (db, _) => db

theorem afterSweep_wf (hwf : db.Wf) : (afterSweep now db).Wf := by
  unfold afterSweep
  split
  · exact hwf
  · next h => exact sweep_wf hwf h

/-- The first sweep prepares a batch for the first site. From then on every sweep looks at
this schedule only, which waits for its publication, and the ready second one never has its
turn. -/
theorem head_decides_waiting :
    ¬ ∀ (now : Time) (locked : List ScheduleId) (limit : Nat) (db : Db), db.Wf → 0 < limit →
      (∃ id schedule batchNumber, id ∉ locked ∧ Ready now db id schedule batchNumber) →
      ∃ db' p ps, prepareDueIndexScheduleBatches now locked limit db = some (db', p :: ps) := by
  intro h
  have hready : Ready (hours 24) (afterSweep 0 twoSites) 1
      { dailySchedule 1 with projectId := 2, siteId := 2, startsAt := hours 2 } 1 :=
    { row := by decide +kernel
      active := rfl
      due := by decide +kernel
      published := publishedBefore_of_all (by decide +kernel)
      free := by decide +kernel
      valid := by decide +kernel }
  obtain ⟨db', p, ps, hsome⟩ := h (hours 24) [] 1 (afterSweep 0 twoSites)
    (afterSweep_wf twoSites_wf) Nat.one_pos ⟨1, _, 1, by simp, hready⟩
  have hnone : (prepareDueIndexScheduleBatches (hours 24) [] 1 (afterSweep 0 twoSites)).map
      (·.2) = some [] := by decide +kernel
  rw [hsome] at hnone
  cases hnone

end MegaPanel.IndexSchedule

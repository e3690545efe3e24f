import MegaPanel.IndexSchedule.Sweep

set_option autoImplicit false

/-! # Progress of one schedule

A batch may be prepared once the builds of all earlier batches are published. The sweep
checks this by counting: it selects the builds recorded on the earlier items and compares
the number of rows with the number of items. The rows are distinct and the recorded
identifiers need not be: the items of one batch share their build. So the check passes, with
all builds published, exactly when no two earlier items record the same build.
-/

namespace MegaPanel.IndexSchedule

open MegaPanel.Lib

/-- Every candidate build recorded on an item of an earlier batch exists and has been
published. -/
def PublishedBefore (builds : Table BuildId Build) (items : List Item) (nextBatch : Nat) : Prop :=
  ∀ item ∈ items, item.batchNumber < nextBatch → ∀ id, item.candidateBuildId = some id →
    ∃ build, builds.get id = some build ∧ build.firstPublishedAt.isSome = true

variable {items : List Item} {nextBatch : Nat}

theorem mem_candidateIds {id : BuildId} :
    id ∈ candidateIds items nextBatch ↔
      ∃ item ∈ items, item.batchNumber < nextBatch ∧ item.candidateBuildId = some id := by
  simp [candidateIds, and_assoc]

variable {builds : Table BuildId Build}

/-- **The check counts rows against items.** When the recorded builds exist, it asks for two
things: that they are published, and that no two items record the same one. -/
theorem priorBatchesArePublished_eq
    (h : ∀ id ∈ candidateIds items nextBatch, (builds.get id).isSome) :
    priorBatchesArePublished builds items nextBatch = true ↔
      (candidateIds items nextBatch).Nodup ∧ ∀ id ∈ candidateIds items nextBatch,
        ∃ build, builds.get id = some build ∧ build.firstPublishedAt.isSome = true := by
  have hall : (builds.selectIn (candidateIds items nextBatch)).all
      (fun r => r.2.firstPublishedAt.isSome) = true ↔
      ∀ id ∈ candidateIds items nextBatch,
        ∃ build, builds.get id = some build ∧ build.firstPublishedAt.isSome = true := by
    rw [List.all_eq_true]
    constructor
    · intro hrows id hid
      obtain ⟨build, hbuild⟩ := Option.isSome_iff_exists.mp (h id hid)
      exact ⟨build, hbuild, hrows (id, build) (Table.mem_selectIn.mpr ⟨hbuild, hid⟩)⟩
    · rintro hpublished ⟨id, build⟩ hmem
      obtain ⟨hget, hid⟩ := Table.mem_selectIn.mp hmem
      obtain ⟨build', hget', hp⟩ := hpublished id hid
      rw [hget] at hget'
      cases hget'
      exact hp
  unfold priorBatchesArePublished
  dsimp only
  split
  · next hnil => simp [hnil]
  · rw [Bool.and_eq_true, hall, decide_eq_true_eq, Table.length_selectIn_eq_iff h]

theorem priorBatchesArePublished_iff (h : PublishedBefore builds items nextBatch) :
    priorBatchesArePublished builds items nextBatch = true ↔
      (candidateIds items nextBatch).Nodup := by
  have hrow : ∀ id ∈ candidateIds items nextBatch,
      ∃ build, builds.get id = some build ∧ build.firstPublishedAt.isSome = true := by
    intro id hid
    obtain ⟨item, hitem, hbatch, hcandidate⟩ := mem_candidateIds.mp hid
    exact h item hitem hbatch id hcandidate
  rw [priorBatchesArePublished_eq, and_iff_left hrow]
  intro id hid
  obtain ⟨build, hbuild, -⟩ := hrow id hid
  rw [hbuild]
  rfl

/-! ## The sweep at one schedule -/

variable {limit : Nat} {db : Db} {id : ScheduleId} {now : Time} {schedule : Schedule}

theorem examined_active {locked : List ScheduleId} (h : id ∈ examined locked limit db) :
    ∃ schedule, db.schedules.get id = some schedule ∧ schedule.state = .active := by
  have hmem := List.mem_of_mem_take h
  simp only [activeSchedules, List.mem_map, List.mem_insertionSort, List.mem_filter,
    Bool.and_eq_true, decide_eq_true_eq] at hmem
  obtain ⟨⟨id', schedule⟩, ⟨hrow, hactive, -⟩, rfl⟩ := hmem
  exact ⟨schedule, Table.mem_rows.mp hrow, hactive⟩

/-- A sweep that examines one schedule does what its loop body does. -/
theorem sweep_single {locked : List ScheduleId} (h : examined locked limit db = [id]) :
    prepareDueIndexScheduleBatches now locked limit db
      = (sweepSchedule now db id).map (fun r => (r.1, r.2.toList)) := by
  unfold prepareDueIndexScheduleBatches
  rw [h]
  unfold sweepLoop
  cases sweepSchedule now db id with
  | none | some r => rfl

/-- The author profiles in the manifest of the schedule's site are current. -/
def authorsCurrent (db : Db) (schedule : Schedule) : Bool :=
  (db.sites schedule.siteId).any (·.authorsCurrent)

/-- Preparing a batch either succeeds or, with author profiles that are not current, raises. -/
theorem prepareBatch_prepared_iff (now : Time) (id : ScheduleId) (db : Db) (schedule : Schedule)
    (batchNumber : Nat) :
    (∃ db', prepareBatch now db id schedule batchNumber = some (db',
      some { scheduleId := id, batchNumber := batchNumber, buildId := db.nextBuild })) ↔
    authorsCurrent db schedule = true := by
  unfold authorsCurrent prepareBatch
  cases db.sites schedule.siteId with
  | none => simp
  | some site =>
    cases hauthors : site.authorsCurrent with
    | false => simp [hauthors]
    | true => simp [hauthors]

/-- The sweep at a schedule whose next due batch is valid and has no competitor. -/
theorem sweepSchedule_due {batchNumber : Nat} (hschedule : db.schedules.get id = some schedule)
    (hdue : minBatch (plannedItems now (db.items id)) = some batchNumber)
    (hpending : siteHasPendingCandidate db.builds schedule.siteId = false)
    (hvalid : validateBatch db schedule (batchItems now (db.items id) batchNumber) = some none) :
    sweepSchedule now db id =
      if priorBatchesArePublished db.builds (db.items id) batchNumber then
        prepareBatch now db id schedule batchNumber
      else some (db, none) := by
  cases hprior : priorBatchesArePublished db.builds (db.items id) batchNumber with
  | true => simp [sweepSchedule, hschedule, hdue, hprior, hpending, hvalid]
  | false => simp [sweepSchedule, hschedule, hdue, hprior]

theorem minBatch_prepared (h : ∀ item ∈ items, item.state = .prepared) :
    minBatch (plannedItems now items) = none := by
  have hnone : plannedItems now items = [] := by
    refine List.filter_eq_nil_iff.mpr (fun item hitem => ?_)
    simp [Item.due, h item hitem]
  simp [hnone, minBatch]

/-- The sweep at a schedule all of whose items are prepared. -/
theorem sweepSchedule_prepared (hschedule : db.schedules.get id = some schedule)
    (hitems : db.items id ≠ []) (hprepared : ∀ item ∈ db.items id, item.state = .prepared) :
    sweepSchedule now db id =
      if priorBatchesArePublished db.builds (db.items id) (maxBatch (db.items id) + 1) then
        some (completeSchedule now db id schedule, none)
      else some (db, none) := by
  simp only [sweepSchedule, hschedule, minBatch_prepared hprepared]
  have hall : (db.items id).all (fun item => item.state = .prepared) = true := by
    simpa using hprepared
  simp only [ne_eq, hitems, not_false_eq_true, hall, true_and]

/-- **Progress.** With every earlier build published, the check lets the next batch through
exactly when no two earlier items record the same build. Under the same condition the next
due valid batch of a site without a pending candidate is prepared, if the author profiles
are current (the sweep raises otherwise), and a schedule with all items prepared is
completed. -/
theorem schedule_progress_iff (now : Time) (locked : List ScheduleId) (limit : Nat) (db : Db)
    (id : ScheduleId) (nextBatch : Nat) {schedule : Schedule}
    (hschedule : db.schedules.get id = some schedule)
    (hexamined : examined locked limit db = [id])
    (hpublished : PublishedBefore db.builds (db.items id) nextBatch) :
    (priorBatchesArePublished db.builds (db.items id) nextBatch = true ↔
      (candidateIds (db.items id) nextBatch).Nodup) ∧
    (minBatch (plannedItems now (db.items id)) = some nextBatch →
      siteHasPendingCandidate db.builds schedule.siteId = false →
      validateBatch db schedule (batchItems now (db.items id) nextBatch) = some none →
      ((∃ db', prepareDueIndexScheduleBatches now locked limit db = some (db',
          [{ scheduleId := id, batchNumber := nextBatch, buildId := db.nextBuild }])) ↔
        (candidateIds (db.items id) nextBatch).Nodup ∧ authorsCurrent db schedule = true)) ∧
    (db.items id ≠ [] → (∀ item ∈ db.items id, item.state = .prepared) →
      nextBatch = maxBatch (db.items id) + 1 →
      ((∃ db' schedule', prepareDueIndexScheduleBatches now locked limit db = some (db', []) ∧
          db'.schedules.get id = some schedule' ∧ schedule'.state = .completed) ↔
        (candidateIds (db.items id) nextBatch).Nodup)) := by
  have hprior := priorBatchesArePublished_iff hpublished
  refine ⟨hprior, ?_, ?_⟩
  · intro hdue hpending hvalid
    rw [← hprior, sweep_single hexamined, sweepSchedule_due hschedule hdue hpending hvalid,
      ← prepareBatch_prepared_iff now id db schedule nextBatch]
    split
    · next hp =>
      rw [and_iff_right hp]
      constructor
      · rintro ⟨db', h⟩
        obtain ⟨⟨d, one⟩, hd, heq⟩ := Option.map_eq_some_iff.mp h
        rw [Prod.mk.injEq, Option.toList_eq_singleton_iff] at heq
        have hone : one = some _ := heq.2
        exact ⟨d, hone ▸ hd⟩
      · rintro ⟨db', hd⟩
        exact ⟨db', by rw [hd]; rfl⟩
    · next hp =>
      refine iff_of_false ?_ (fun h => hp h.1)
      rintro ⟨db', h⟩
      simp at h
  · rintro hitems hprepared rfl
    rw [← hprior, sweep_single hexamined, sweepSchedule_prepared hschedule hitems hprepared]
    split
    · next hp =>
      refine iff_of_true ⟨_, _, rfl, Table.get_set_self .., rfl⟩ hp
    · next hp =>
      refine iff_of_false ?_ hp
      rintro ⟨db', schedule', h, hget, hstate⟩
      simp only [Option.map_some, Option.some.injEq, Prod.mk.injEq] at h
      rw [← h.1, hschedule] at hget
      cases hget
      have hmem : id ∈ examined locked limit db := by
        rw [hexamined]
        exact List.mem_singleton.mpr rfl
      obtain ⟨s, hs, hactive⟩ := examined_active hmem
      rw [hschedule] at hs
      cases hs
      rw [hactive] at hstate
      cases hstate

/-! ## Batches of several items -/

/-! ## Runs -/

/-- An active schedule with batches of `batchSize`. -/
def dailySchedule (batchSize : Nat) : Schedule where
  tenantId := 1
  projectId := 1
  siteId := 1
  state := .active
  reason := "gradual indexing"
  startsAt := 0
  createdAt := 0
  intervalHours := 24
  batchSize := batchSize
  createdBy := none
  approvedBy := none
  pausedAt := none
  completedAt := none

/-- A site with three pages and the schedule for them. -/
def threePages (batchSize : Nat) : Db where
  schedules := Table.empty.set 0 (dailySchedule batchSize)
  items := fun id => if id = 0 then
    scheduleItems 0 24 batchSize
      [⟨"a", 0, "h0", "h0"⟩, ⟨"b", 1, "h1", "h1"⟩, ⟨"c", 2, "h2", "h2"⟩] else []
  builds := Table.empty
  promotions := []
  drafts := fun id =>
    let page := [("a", "h0"), ("b", "h1"), ("c", "h2")][id]?
    page.map (fun (slug, hash) =>
      { tenantId := 1, projectId := 1, applied := true, contentHash := some hash,
        page := some (hash, some slug), currentQa := true, qaPassed := true })
  projects := fun id => if id = 1 then some 1 else none
  sites := fun id => if id = 1 then
    some { tenantId := 1, projectId := some 1, buildHash := none,
           pages := some [⟨"a", "h0"⟩, ⟨"b", "h1"⟩, ⟨"c", "h2"⟩], authorsCurrent := true } else none
  nextBuild := 0
  nextPromotion := 0

/-- What publishing a build means to the sweep. -/
def publishBuild (now : Time) (db : Db) (id : BuildId) : Db :=
  match db.builds.get id with
  | none => db
  | some build =>
    let build : Build := { build with status := .ready, firstPublishedAt := some now }
    { db with builds := db.builds.set id build }

/-- The database after a first sweep, its build published. -/
def afterFirstBatch (db : Db) : Db :=
  match prepareDueIndexScheduleBatches 0 [] 1 db with
  | none => db
  | some (db, prepared) => prepared.foldl (fun db p => publishBuild 1 db p.buildId) db

theorem publishedBefore_of_all (h : (candidateIds items nextBatch).all (fun id =>
      (builds.get id).any (fun build => build.firstPublishedAt.isSome)) = true) :
    PublishedBefore builds items nextBatch := by
  intro item hitem hbatch id hid
  have hany := List.all_eq_true.mp h id (mem_candidateIds.mpr ⟨item, hitem, hbatch, hid⟩)
  exact (Option.any_eq_true _ _).mp hany

theorem schedule_progress_single :
    ∃ db', prepareDueIndexScheduleBatches (hours 24) [] 1 (afterFirstBatch (threePages 1))
      = some (db', [{ scheduleId := 0, batchNumber := 2, buildId := 1 }]) :=
  ((schedule_progress_iff (hours 24) [] 1 (afterFirstBatch (threePages 1)) 0 2
      (show _ = some (dailySchedule 1) by decide +kernel) (by decide +kernel)
      (publishedBefore_of_all (by decide +kernel))).2.1 (by decide +kernel) (by decide +kernel)
    (by decide +kernel)).mpr (by decide +kernel)

/-- In batches of two, the build of the first batch is published and the second batch is
never let through. -/
theorem schedule_progress_pair :
    ¬ ∀ (builds : Table BuildId Build) (items : List Item) (nextBatch : Nat),
      PublishedBefore builds items nextBatch →
        priorBatchesArePublished builds items nextBatch = true := by
  intro h
  have hpublished : PublishedBefore (afterFirstBatch (threePages 2)).builds
      ((afterFirstBatch (threePages 2)).items 0) 2 :=
    publishedBefore_of_all (by decide +kernel)
  have hblocked : priorBatchesArePublished (afterFirstBatch (threePages 2)).builds
      ((afterFirstBatch (threePages 2)).items 0) 2 = false := by decide +kernel
  rw [h _ _ 2 hpublished] at hblocked
  cases hblocked

end MegaPanel.IndexSchedule

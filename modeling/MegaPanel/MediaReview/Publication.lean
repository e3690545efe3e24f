import MegaPanel.Lib.Run
import MegaPanel.MediaReview.Model

set_option autoImplicit false

/-! # Rejected media at the publication

A build was checked when it was built, and the decisions of that time allowed its assets. The gate
before a publication checks the rights, the hash and the file again, but no decision. So a published
asset is rejected exactly when a rejection is the last decision about it since the build was checked
(`published_media_usable`).
-/

namespace MegaPanel.MediaReview

open MegaPanel.Lib
open MegaPanel.PageDraft (AssetId PageManifest Draft)

/-! ## What is asked of a published asset -/

/-- The asset has the hash of the manifest, its rights are in force, and the latest decision about
this hash does not reject it. -/
structure Usable (db : Db) (today : Date) (tenantId : TenantId) (usage : Usage)
    (asset : MediaAsset) : Prop where
  found : db.assets.get usage.assetId = some asset
  tenant : asset.tenantId = tenantId
  rights : RightsInForce today asset.provenance
  hash : asset.storedSha256 = usage.expectedSha256
  allowed : latestDecision db.decisions tenantId usage.assetId usage.expectedSha256
    ≠ some .rejected

/-- What is asked of a publication or rollback: every asset of the activated manifest is usable, and
a build of the manifest would accept them all. -/
def MediaUsable (db : Db) (a : Action) : Prop :=
  ∀ sel, selection db a = some sel →
    (∀ usage ∈ manifestAssetUsage sel.build.manifestSnapshot,
      ∃ asset, Usable db sel.env.today sel.project.tenantId usage asset) ∧
    ∃ built, buildAssetsForManifest db.assets db.decisions sel.env sel.project.tenantId
      sel.build.manifestSnapshot = .ok built

/-! ## The decisions since a build was checked -/

/-- The history variable: the decisions recorded since the assets of a build were checked, the
latest first. -/
abbrev Since := BuildId → List ReviewDecision

def note (db : Db) (a : Action) (since : Since) : Since :=
  match a with
  | .decide assetId body =>
    match createMediaReviewDecision db assetId body with
    | .ok decision => fun id => decision :: since id
    | .error _ => since
  | .runBuild id _ _ => Function.update since id []
  | _ => since

/-- The condition: for no asset of the selected build a rejection is the last decision that has been
recorded since the build was checked. -/
def noneRejectedSince (db : Db) (since : Since) (a : Action) : Bool :=
  (selection db a).all (fun sel =>
    (manifestAssetUsage sel.build.manifestSnapshot).all (fun usage =>
      decide (latestDecision (since sel.id) sel.project.tenantId usage.assetId
        usage.expectedSha256 ≠ some .rejected)))

theorem latestDecision_append (xs ys : List ReviewDecision) (tenantId : TenantId)
    (assetId : AssetId) (sha : String) :
    latestDecision (xs ++ ys) tenantId assetId sha =
      (latestDecision xs tenantId assetId sha).or (latestDecision ys tenantId assetId sha) := by
  unfold latestDecision mediaReviewHistory
  rw [List.filter_append, List.head?_append]
  cases (xs.filter _).head? with
  | none | some _ => rfl

/-! ## The invariant -/

variable {db db' t : Db} {since : Since} {id : BuildId} {a : Action} {sel : Selection}

/-- The decisions before the check of a ready build allow its assets. -/
def Sound (db : Db) (since : Since) : Prop :=
  ∀ id build, db.builds.get id = some build → build.status = .ready →
    ∃ older, db.decisions = since id ++ older ∧
      ∀ usage ∈ manifestAssetUsage build.manifestSnapshot,
        latestDecision older build.tenantId usage.assetId usage.expectedSha256 ≠ some .rejected

/-- A step that changes neither the decisions nor the builds. -/
theorem Sound.frame (hs : Sound db since) (hdecisions : db'.decisions = db.decisions)
    (hbuilds : db'.builds = db.builds) : Sound db' since := by
  intro id build hget hready
  rw [hbuilds] at hget
  rw [hdecisions]
  exact hs id build hget hready

/-- A step that writes one build, which either is not ready or keeps its snapshot. -/
theorem Sound.setBuild {build : Build} (hs : Sound db since)
    (hdecisions : db'.decisions = db.decisions) (hbuilds : db'.builds = db.builds.set id build)
    (hold : build.status = .ready → ∃ old, db.builds.get id = some old ∧ old.status = .ready ∧
      old.manifestSnapshot = build.manifestSnapshot ∧ old.tenantId = build.tenantId) :
    Sound db' since := by
  intro j row hget hready
  rw [hbuilds, Table.get_set_eq_some] at hget
  rw [hdecisions]
  rcases hget with ⟨rfl, rfl⟩ | ⟨_, hget⟩
  · obtain ⟨old, hget, holdReady, hsnapshot, htenant⟩ := hold hready
    rw [← hsnapshot, ← htenant]
    exact hs j old hget holdReady
  · exact hs j row hget hready

theorem selection_build (h : selection db a = some sel) :
    db.builds.get sel.id = some sel.build ∧ sel.build.status = .ready ∧
      sel.build.tenantId = sel.project.tenantId := by
  cases a with
  | publish projectId id env otherBlockers now =>
    obtain ⟨project, _, h⟩ := Option.bind_eq_some_iff.mp h
    obtain ⟨site, _, h⟩ := Option.bind_eq_some_iff.mp h
    obtain ⟨build, hbuild, rfl⟩ := Option.map_eq_some_iff.mp h
    obtain ⟨hget, hmatch⟩ := Option.filter_eq_some_iff.mp hbuild
    simp only [Bool.and_eq_true, decide_eq_true_eq] at hmatch
    exact ⟨hget, hmatch.1.2, hmatch.1.1.2⟩
  | rollback projectId hash env otherBlockers now =>
    obtain ⟨project, _, h⟩ := Option.bind_eq_some_iff.mp h
    obtain ⟨site, _, h⟩ := Option.bind_eq_some_iff.mp h
    split_ifs at h
    split at h
    · next id build htargets =>
      cases h
      have hmem : (id, build) ∈ rollbackTargets db projectId project hash := by
        rw [htargets]
        exact List.mem_singleton_self _
      obtain ⟨hrow, hmatch⟩ := List.mem_filter.mp hmem
      simp only [Bool.and_eq_true, decide_eq_true_eq] at hmatch
      exact ⟨Table.mem_rows.mp hrow, hmatch.1.2, hmatch.1.1.1.2⟩
    · cases h
  | _ => cases h

theorem publishSelected_eq_some (h : db.publishSelected sel = some t) :
    manifestMediaComplianceBlockers db.assets sel.env sel.project.tenantId
        sel.build.manifestSnapshot = [] ∧
      t = db.activate sel.projectId sel.project sel.site sel.id sel.build sel.now := by
  unfold Db.publishSelected at h
  split at h
  · next hgate =>
    rw [gatePasses, List.isEmpty_iff, List.append_eq_nil_iff] at hgate
    exact ⟨hgate.2, (Option.some.inj h).symm⟩
  · cases h

theorem Sound.publishSelected (hs : Sound db since) (hsel : selection db a = some sel)
    (h : db.publishSelected sel = some t) : Sound t since := by
  obtain ⟨hget, hready, _⟩ := selection_build hsel
  obtain ⟨_, rfl⟩ := publishSelected_eq_some h
  exact hs.setBuild rfl rfl (fun _ => ⟨sel.build, hget, hready, rfl, rfl⟩)

theorem Sound.withDraft {id : PageDraft.DraftId}
    {f : ProjectId → Draft → Except PageDraft.Refusal Draft} (hs : Sound db since)
    (h : db.withDraft id f = some t) : Sound t since := by
  obtain ⟨row, _, h⟩ := Option.bind_eq_some_iff.mp h
  obtain ⟨draft, _, rfl⟩ := toOption_map_eq_some h
  exact hs.frame rfl rfl

/-- A build that becomes ready has been checked against the decisions of that moment. -/
theorem Sound.runBuild {build : Build} (hs : Sound db since) (env : Env)
    (rendered : Option String) :
    Sound { db with builds := db.builds.set id (runQueuedCandidateBuild db env build rendered) }
      (Function.update since id []) := by
  intro j row hget hready
  rcases Table.get_set_eq_some.mp hget with ⟨rfl, rfl⟩ | ⟨hne, hget⟩
  · rw [Function.update_self]
    unfold runQueuedCandidateBuild at hready ⊢
    split at hready
    · next found hash hfound =>
      exact ⟨db.decisions, rfl, (buildAssetsForManifest_isOk.mp ⟨found, hfound⟩).2⟩
    · cases hready
  · rw [Function.update_of_ne hne]
    exact hs j row hget hready

theorem Sound.step {dumps : PageManifest → String} (hs : Sound db since)
    (h : MediaReview.step dumps db a = some t) : Sound t (note db a since) := by
  cases a with
  | upload id today form =>
    simp only [MediaReview.step] at h
    split at h
    · obtain ⟨asset, _, rfl⟩ := toOption_map_eq_some h
      exact hs.frame rfl rfl
    · cases h
  | decide assetId body =>
    obtain ⟨decision, hdecision, rfl⟩ := toOption_map_eq_some h
    intro id build hget hready
    obtain ⟨older, hdecisions, hallowed⟩ := hs id build hget hready
    refine ⟨older, ?_, hallowed⟩
    simp only [note, hdecision, List.cons_append, hdecisions]
  | updateBranding projectId env body =>
    obtain ⟨project, _, h⟩ := Option.bind_eq_some_iff.mp h
    obtain ⟨updated, _, rfl⟩ := toOption_map_eq_some h
    exact hs.frame rfl rfl
  | reviseAuthor id revision =>
    cases h
    exact hs.frame rfl rfl
  | generate id projectId page origin =>
    simp only [MediaReview.step] at h
    split at h
    · obtain ⟨draft, _, rfl⟩ := toOption_map_eq_some h
      exact hs.frame rfl rfl
    · cases h
  | attach id env attachment | runQa id result | submitReview id =>
    simp only [MediaReview.step] at h
    exact hs.withDraft h
  | applyDraft id env sources override user =>
    obtain ⟨row, _, h⟩ := Option.bind_eq_some_iff.mp h
    obtain ⟨project, _, h⟩ := Option.bind_eq_some_iff.mp h
    obtain ⟨page, _, rfl⟩ := toOption_map_eq_some h
    exact hs.frame rfl rfl
  | createBuild id projectId env =>
    simp only [MediaReview.step] at h
    split at h
    · obtain ⟨project, _, h⟩ := Option.bind_eq_some_iff.mp h
      obtain ⟨build, hbuild, rfl⟩ := toOption_map_eq_some h
      refine hs.setBuild rfl rfl (fun hready => ?_)
      unfold createProjectBuild at hbuild
      split at hbuild
      · cases hbuild
      split at hbuild
      · cases hbuild
      · cases hbuild
        cases hready
    · cases h
  | retryBuild id =>
    obtain ⟨build, _, h⟩ := Option.bind_eq_some_iff.mp h
    split at h
    · cases h
      exact hs.setBuild rfl rfl (fun hready => by cases hready)
    · cases h
  | runBuild id env rendered =>
    obtain ⟨build, _, h⟩ := Option.bind_eq_some_iff.mp h
    split at h
    · cases h
      exact hs.runBuild env rendered
    · cases h
  | publish projectId id env otherBlockers now | rollback projectId hash env otherBlockers now =>
    obtain ⟨sel, hsel, h⟩ := Option.bind_eq_some_iff.mp h
    exact hs.publishSelected hsel h

/-! ## Every publication -/

/-- A step that selects a build passes the media gate for it. -/
theorem step_gate {dumps : PageManifest → String} (hsel : selection db a = some sel)
    (h : step dumps db a = some t) :
    manifestMediaComplianceBlockers db.assets sel.env sel.project.tenantId
      sel.build.manifestSnapshot = [] := by
  have hpublish : (selection db a).bind db.publishSelected = some t := by
    cases a with
    | publish projectId id env otherBlockers now | rollback projectId hash env otherBlockers now =>
      exact h
    | _ => cases hsel
  rw [hsel, Option.bind_some] at hpublish
  exact (publishSelected_eq_some hpublish).1

/-- An asset that passes the gate is usable when it is not rejected. -/
theorem Present.usable {env : Env} {tenantId : TenantId} {usage : Usage} {asset : MediaAsset}
    (h : Present db.assets env tenantId usage asset)
    (hallowed : latestDecision db.decisions tenantId usage.assetId usage.expectedSha256
      ≠ some .rejected) : Usable db env.today tenantId usage asset := by
  obtain ⟨hget, htenant⟩ := Option.filter_eq_some_iff.mp h.found
  obtain ⟨hrights, _, hhash⟩ := verifiedMediaHash_ok.mp h.verified
  exact ⟨hget, of_decide_eq_true htenant, hrights, hhash, hallowed⟩

theorem mediaUsable_iff {dumps : PageManifest → String} (hs : Sound db since)
    (h : step dumps db a = some t) : MediaUsable db a ↔ noneRejectedSince db since a = true := by
  unfold MediaUsable noneRejectedSince
  cases hsel : selection db a with
  | none => exact ⟨fun _ => rfl, fun _ sel hsel => by cases hsel⟩
  | some sel =>
    obtain ⟨hget, hready, htenant⟩ := selection_build hsel
    obtain ⟨older, hdecisions, hallowed⟩ := hs sel.id sel.build hget hready
    have hgate := step_gate hsel h
    have hlatest : ∀ usage ∈ manifestAssetUsage sel.build.manifestSnapshot,
        latestDecision db.decisions sel.project.tenantId usage.assetId usage.expectedSha256
            ≠ some .rejected ↔
          latestDecision (since sel.id) sel.project.tenantId usage.assetId usage.expectedSha256
            ≠ some .rejected := by
      intro usage husage
      have holder := hallowed usage husage
      rw [htenant] at holder
      rw [hdecisions, latestDecision_append]
      cases latestDecision (since sel.id) sel.project.tenantId usage.assetId
          usage.expectedSha256 with
      | none =>
        rw [Option.none_or]
        exact ⟨fun _ => nofun, fun _ => holder⟩
      | some decision => exact Iff.rfl
    rw [Option.all_some, List.all_eq_true]
    constructor
    · intro husable usage husage
      obtain ⟨asset, hasset⟩ := (husable sel rfl).1 usage husage
      exact decide_eq_true ((hlatest usage husage).mp hasset.allowed)
    · intro hcond _ hsame
      cases hsame
      have hfree : ∀ usage ∈ manifestAssetUsage sel.build.manifestSnapshot,
          latestDecision db.decisions sel.project.tenantId usage.assetId usage.expectedSha256
            ≠ some .rejected :=
        fun usage husage => (hlatest usage husage).mpr (of_decide_eq_true (hcond usage husage))
      refine ⟨fun usage husage => ?_, buildAssetsForManifest_isOk.mpr ⟨hgate, hfree⟩⟩
      obtain ⟨asset, hpresent⟩ :=
        manifestMediaComplianceBlockers_eq_nil.mp hgate usage husage
      exact ⟨asset, hpresent.usable (hfree usage husage)⟩

/-- **Exactly when a run publishes only usable media**: from a state without builds, all
publications and rollbacks of a run activate usable media exactly when each of them selects a build
for whose assets no rejection is the last decision since the build was checked. -/
theorem published_media_usable {dumps : PageManifest → String} {db : Db} (as : List Action)
    (hbuilds : db.builds.keys = []) :
    Along (withGhost (step dumps) note) (fun s a _ => MediaUsable s.1 a) (db, fun _ => []) as ↔
      Along (withGhost (step dumps) note) (fun s a _ => noneRejectedSince s.1 s.2 a = true)
        (db, fun _ => []) as := by
  have hstep : ∀ s since a t, Sound s since → step dumps s a = some t → Sound t (note s a since) :=
    fun _ _ _ _ hs h => hs.step h
  have hiff : ∀ s since a t, Sound s since → step dumps s a = some t →
      (MediaUsable s a ↔ noneRejectedSince s since a = true) :=
    fun _ _ _ _ hs h => mediaUsable_iff hs h
  refine ghost_along_iff (I := Sound) (P := fun s _ a => MediaUsable s a) hstep hiff ?_
  intro id build hget
  cases (Table.get_of_keys_nil hbuilds id).symm.trans hget

/-! ## A decision between the build and the publication -/

def photoHash : String := String.ofList (List.replicate 64 'a')

/-- A page with one picture. -/
def photoPage : PageManifest where
  slug := "/"
  titleTemplate := "Ремонт"
  h1Template := "Ремонт"
  metaDescriptionTemplate := ""
  uniqueCore := none
  blocks := []
  media := [⟨7, photoHash, "Фото"⟩]
  blockMedia := []
  design := none
  author := none
  rest := ""

def photoAsset : MediaAsset where
  tenantId := 1
  path := "/uploads/1/media/7.webp"
  contentType := "image/webp"
  provenance := ⟨"manual_upload", true, some "2026-12-31"⟩
  storedSha256 := photoHash

def photoDb : Db where
  assets := Table.empty.set 7 photoAsset
  decisions := []
  authors := Table.empty
  projects := Table.empty.set 1
    ⟨1, some ⟨none, none⟩, 1, some ⟨⟨none, none, [photoPage]⟩, none, none⟩⟩
  drafts := Table.empty
  builds := Table.empty

def photoEnv : Env := ⟨⟨2026, 6, 1⟩, fun path => path = "/uploads/1/media/7.webp"⟩

def rejection : MediaReviewDecisionIn :=
  ⟨.rejected, some "Чужое фото", some "Загрузите собственное фото"⟩

/-- A build of the page, and a decision about its picture. -/
def decidedAfterBuild (body : MediaReviewDecisionIn) : List Action :=
  [.createBuild 1 1 photoEnv, .runBuild 1 photoEnv (some "b1"), .decide 7 body]

def photoPublish : Action := .publish 1 1 photoEnv [] 0

/-- A picture that is rejected after the build and approved again before the publication. -/
theorem published_media_usable_reapproved :
    photoDb.builds.keys = [] ∧
      Along (withGhost (step fun _ => "") note) (fun s a _ => MediaUsable s.1 a)
        (photoDb, fun _ => [])
        (decidedAfterBuild rejection ++ [.decide 7 ⟨.approved, none, none⟩, photoPublish]) :=
  ⟨rfl, (published_media_usable _ rfl).mpr (by decide +kernel)⟩

/-- A picture that is rejected after the build is published all the same. -/
theorem published_media_rejected :
    ∃ (db : Db) (as : List Action), db.builds.keys = [] ∧
      (exec (step fun _ => "") db as).isSome ∧
      ¬ Along (withGhost (step fun _ => "") note) (fun s a _ => MediaUsable s.1 a)
        (db, fun _ => []) as := by
  refine ⟨photoDb, decidedAfterBuild rejection ++ [photoPublish], rfl, by decide +kernel,
    fun h => ?_⟩
  have halong := (along_withGhost note (Q := fun db a _ => MediaUsable db a)).mp h
  have hfacts : (exec (step fun _ => "") photoDb (decidedAfterBuild rejection)).any (fun db =>
      (step (fun _ => "") db photoPublish).isSome && (selection db photoPublish).any (fun sel =>
        decide (⟨"gallery", 7, photoHash⟩ ∈ manifestAssetUsage sel.build.manifestSnapshot)
          && decide (latestDecision db.decisions sel.project.tenantId 7 photoHash
            = some .rejected))) = true := by decide +kernel
  obtain ⟨db, hrun, hfacts⟩ := (Option.any_eq_true _ _).mp hfacts
  obtain ⟨hstep, hselected⟩ := Bool.and_eq_true_iff.mp hfacts
  obtain ⟨t, ht⟩ := Option.isSome_iff_exists.mp hstep
  obtain ⟨sel, hsel, hbad⟩ := (Option.any_eq_true _ _).mp hselected
  obtain ⟨husage, hrejected⟩ := Bool.and_eq_true_iff.mp hbad
  obtain ⟨asset, husable⟩ := (halong.at hrun ht sel hsel).1 _ (of_decide_eq_true husage)
  exact husable.allowed (of_decide_eq_true hrejected)

end MegaPanel.MediaReview

import MegaPanel.Lib.DateTime
import MegaPanel.Lib.Dict
import MegaPanel.Lib.Sha256
import MegaPanel.Lib.Table
import MegaPanel.PageDraft.Model

set_option autoImplicit false

/-! # Media assets and their two checks

An asset is a stored file with its declared rights (`api/v1/media.py`). Operators decide whether the
file of an asset may be used, as often as they want, and the latest decision counts. Two functions of
`api/v1/projects.py` check the assets of a manifest. `_build_assets_for_manifest` does it before a
candidate is built and looks at the decisions. `_manifest_media_compliance_blockers` does it before a
build is published and does not look at them (`buildAssetsForManifest_isOk`).

The day and the files below the root of the uploads are inputs of each request, an `Env`. A stored
path is below the root when the file counts as there.
-/

namespace MegaPanel.MediaReview

open MegaPanel.Lib MegaPanel.Lib.Text
open MegaPanel.PageDraft (AssetId RevisionId PageMedia PageManifest Author)

/-! ## Rows -/

/-- `meta["provenance"]` of an asset. -/
structure Provenance where
  kind : String
  rightsConfirmed : Bool
  licenseExpiresAt : Option String
  deriving DecidableEq

/-- `MediaAsset` -/
structure MediaAsset where
  tenantId : TenantId
  path : String
  contentType : String
  provenance : Provenance
  /-- `meta["hashes"]["stored_sha256"]` -/
  storedSha256 : String
  deriving DecidableEq

inductive Decision
  | approved
  | rejected
  deriving DecidableEq

/-- An entry of the audit log with the action `media.review.decision`. -/
structure ReviewDecision where
  tenantId : TenantId
  assetId : AssetId
  storedSha256 : String
  decision : Decision
  reason : Option String
  manualReplacementGuidance : Option String
  deriving DecidableEq

structure Env where
  today : Date
  isFile : String → Bool

/-- What `except (HTTPException, ValueError)` catches. -/
inductive Blocker
  | http (e : HttpError)
  | valueError (text : String)
  deriving DecidableEq

def Blocker.detail : Blocker → String
  | .http e => e.detail
  | .valueError text => text

/-! ## The checks of one asset -/

/-- `_verified_media_hash` -/
def verifiedMediaHash (today : Date) (asset : MediaAsset) : Except Blocker String :=
  if asset.provenance.kind ≠ "manual_upload" ∨ asset.provenance.rightsConfirmed = false then
    .error (.valueError "Media asset rights are not confirmed")
  else
    let stored :=
      if Sha256.isSha256 asset.storedSha256 then .ok asset.storedSha256
      else .error (.valueError "Media asset hash is unavailable")
    match asset.provenance.licenseExpiresAt with
    | none => stored
    | some text =>
      if text = "" then stored
      else
        match readDate text.toList with
        | none => .error (.valueError "Media asset license expiry is invalid")
        | some date =>
          if date.ordinal < today.ordinal then
            .error (.valueError "Media asset license has expired")
          else stored

/-- `_asset_path` -/
def assetPath (env : Env) (asset : MediaAsset) : Except Blocker String :=
  if env.isFile asset.path then .ok asset.path
  else .error (.http ⟨404, "Media file not found"⟩)

/-- `_media_review_history`; the entries are kept with the latest first. -/
def mediaReviewHistory (decisions : List ReviewDecision) (tenantId : TenantId) (assetId : AssetId)
    (storedSha256 : String) : List ReviewDecision :=
  decisions.filter (fun d =>
    d.tenantId = tenantId && d.assetId = assetId && d.storedSha256 = storedSha256)

/-- The latest decision about a stored file of an asset. -/
def latestDecision (decisions : List ReviewDecision) (tenantId : TenantId) (assetId : AssetId)
    (storedSha256 : String) : Option Decision :=
  (mediaReviewHistory decisions tenantId assetId storedSha256).head?.map (·.decision)

def rejectionMessage (entry : ReviewDecision) : String :=
  let message := "Media asset was rejected for this stored file; replace it manually before use"
  let guidance := strip (entry.manualReplacementGuidance.getD "")
  if guidance = "" then message else message ++ ": " ++ guidance

/-- `ensure_media_review_allows_use` -/
def ensureMediaReviewAllowsUse (decisions : List ReviewDecision) (tenantId : TenantId)
    (assetId : AssetId) (storedSha256 : String) : Except Blocker Unit :=
  match (mediaReviewHistory decisions tenantId assetId storedSha256).head? with
  | none => .ok ()
  | some entry =>
    if entry.decision = .rejected then .error (.valueError (rejectionMessage entry)) else .ok ()

/-- The look-up of an asset, with the tenant in the condition. -/
def findAsset (assets : Table AssetId MediaAsset) (tenantId : TenantId) (assetId : AssetId) :
    Option MediaAsset :=
  (assets.get assetId).filter (fun asset => asset.tenantId = tenantId)

/-! ## The assets of a manifest -/

/-- `BrandFavicon` -/
structure Favicon where
  assetId : AssetId
  storedSha256 : String
  deriving DecidableEq

/-- `SiteBranding` -/
structure Branding where
  logo : Option PageMedia
  favicon : Option Favicon
  deriving DecidableEq

/-- `SiteManifest`, without the fields that no check of the media reads. -/
structure Manifest where
  branding : Option Branding
  design : Option SiteManifest.Design
  pages : List PageManifest
  deriving DecidableEq

/-- Where a manifest uses an asset, and the hash it has there. -/
structure Usage where
  placement : String
  assetId : AssetId
  expectedSha256 : String
  deriving DecidableEq

def mediaUsage (placement : String) (m : PageMedia) : Usage :=
  ⟨placement, m.assetId, m.storedSha256⟩

def Branding.usages (branding : Branding) : List Usage :=
  (branding.logo.map (mediaUsage "site_logo")).toList
    ++ (branding.favicon.map (fun f => ⟨"site_favicon", f.assetId, f.storedSha256⟩)).toList

def pageUsages (page : PageManifest) : List Usage :=
  page.media.map (mediaUsage "gallery")
    ++ page.blockMedia.map (fun e => mediaUsage ("block:" ++ e.1) e.2)
    ++ (page.author.map (fun a => mediaUsage "author_portrait" a.portrait)).toList

/-- `_manifest_asset_usage` -/
def manifestAssetUsage (manifest : Manifest) : List Usage :=
  (manifest.branding.map Branding.usages).getD [] ++ manifest.pages.flatMap pageUsages

/-! ## The check before a publication -/

inductive UsageStatus
  | missingAsset
  | hashMismatch
  | unavailable
  | verified
  deriving DecidableEq

def UsageStatus.text : UsageStatus → String
  | .missingAsset => "missing_asset"
  | .hashMismatch => "hash_mismatch"
  | .unavailable => "unavailable"
  | .verified => "verified"

/-- `_asset_usage_status` -/
def assetUsageStatus (env : Env) (asset : Option MediaAsset) (expectedSha256 : String) :
    UsageStatus :=
  match asset with
  | none => .missingAsset
  | some asset =>
    match verifiedMediaHash env.today asset with
    | .error _ => .unavailable
    | .ok storedSha256 =>
      if storedSha256 ≠ expectedSha256 then .hashMismatch
      else
        match assetPath env asset with
        | .error _ => .unavailable
        | .ok _ => .verified

/-- `_manifest_media_compliance_blockers` -/
def manifestMediaComplianceBlockers (assets : Table AssetId MediaAsset) (env : Env)
    (tenantId : TenantId) (manifest : Manifest) : List String :=
  (manifestAssetUsage manifest).filterMap (fun usage =>
    let status :=
      assetUsageStatus env (findAsset assets tenantId usage.assetId) usage.expectedSha256
    if status = .verified then none
    else some ("Media asset " ++ toString usage.assetId ++ " for " ++ usage.placement ++ " is "
      ++ status.text ++ "; replace it before creating a new candidate"))

/-! ## The check before a build -/

/-- `expected_hashes`; `none` is the conflict of two hashes of one asset. -/
def expectedHashes : List (AssetId × String) → List Usage → Option (List (AssetId × String))
  | expected, [] => some expected
  | expected, usage :: rest =>
    match expected.lookup usage.assetId with
    | none => expectedHashes (expected ++ [(usage.assetId, usage.expectedSha256)]) rest
    | some existing =>
      if existing = usage.expectedSha256 then expectedHashes expected rest else none

/-- `BuildAsset` -/
structure BuildAsset where
  assetId : AssetId
  sourcePath : String
  storedSha256 : String
  contentType : String
  deriving DecidableEq

/-- The body of the loop of `_build_assets_for_manifest`. -/
def buildAsset (decisions : List ReviewDecision) (env : Env) (tenantId : TenantId)
    (assetId : AssetId) (asset : MediaAsset) (expectedSha256 : String) :
    Except Blocker BuildAsset :=
  match verifiedMediaHash env.today asset with
  | .error e => .error e
  | .ok storedSha256 =>
    if storedSha256 ≠ expectedSha256 then
      .error (.valueError "Media asset changed after draft review")
    else
      match ensureMediaReviewAllowsUse decisions tenantId assetId storedSha256,
          assetPath env asset with
      | .error e, _ => .error e
      | .ok _, .error e => .error e
      | .ok _, .ok path => .ok ⟨assetId, path, storedSha256, asset.contentType⟩

/-- `_build_assets_for_manifest` -/
def buildAssetsForManifest (assets : Table AssetId MediaAsset) (decisions : List ReviewDecision)
    (env : Env) (tenantId : TenantId) (manifest : Manifest) : Except HttpError (List BuildAsset) :=
  match expectedHashes [] (manifestAssetUsage manifest) with
  | none => .error ⟨422, "Media asset hash conflicts in site manifest"⟩
  | some expected =>
    if expected.any (fun e => (findAsset assets tenantId e.1).isNone) then
      .error ⟨422, "A referenced media asset is unavailable"⟩
    else
      expected.mapM (fun e =>
        match findAsset assets tenantId e.1 with
        | none => .error ⟨422, "A referenced media asset is unavailable"⟩
        | some asset =>
          match buildAsset decisions env tenantId e.1 asset e.2 with
          | .ok found => .ok found
          | .error e => .error ⟨422, "Media asset blocker: " ++ e.detail⟩)

/-! ## What the checks establish -/

variable {asset : MediaAsset} {sha : String} {decisions : List ReviewDecision} {tenantId : TenantId}
  {assets : Table AssetId MediaAsset} {env : Env} {usage : Usage} {manifest : Manifest}

/-- The rights of an asset are declared, and its licence has not expired. -/
structure RightsInForce (today : Date) (p : Provenance) : Prop where
  kind : p.kind = "manual_upload"
  confirmed : p.rightsConfirmed = true
  unexpired : ∀ text, p.licenseExpiresAt = some text → text ≠ "" →
    ∃ date, readDate text.toList = some date ∧ today.ordinal ≤ date.ordinal

theorem verifiedMediaHash_ok {today : Date} :
    verifiedMediaHash today asset = .ok sha ↔ RightsInForce today asset.provenance ∧
      Sha256.isSha256 asset.storedSha256 = true ∧ asset.storedSha256 = sha := by
  have hstored : (if Sha256.isSha256 asset.storedSha256 then .ok asset.storedSha256
      else .error (Blocker.valueError "Media asset hash is unavailable")) = Except.ok sha ↔
      Sha256.isSha256 asset.storedSha256 = true ∧ asset.storedSha256 = sha := by
    split
    · next h => exact ⟨fun he => ⟨h, Except.ok.inj he⟩, fun he => congrArg _ he.2⟩
    · next h => exact ⟨fun he => (by cases he), fun he => absurd he.1 h⟩
  unfold verifiedMediaHash
  split
  · next hrights =>
    refine ⟨fun h => (by cases h), fun h => ?_⟩
    rcases hrights with hkind | hconfirmed
    · exact absurd h.1.kind hkind
    · cases hconfirmed.symm.trans h.1.confirmed
  · next hrights =>
    obtain ⟨hkind, hconfirmed⟩ := not_or.mp hrights
    have hkind := not_not.mp hkind
    have hconfirmed := Bool.not_eq_false _ ▸ hconfirmed
    have hin (hunexpired : ∀ text, asset.provenance.licenseExpiresAt = some text → text ≠ "" →
        ∃ date, readDate text.toList = some date ∧ today.ordinal ≤ date.ordinal) :
        RightsInForce today asset.provenance := ⟨hkind, hconfirmed, hunexpired⟩
    dsimp only
    split
    · next hnone =>
      rw [hstored]
      refine ⟨fun h => ⟨hin (fun text htext => ?_), h⟩, fun h => h.2⟩
      cases hnone.symm.trans htext
    · next text hsome =>
      split
      · next hempty =>
        rw [hstored]
        refine ⟨fun h => ⟨hin (fun other hother hne => ?_), h⟩, fun h => h.2⟩
        cases hsome.symm.trans hother
        exact absurd hempty hne
      · next hne =>
        split
        · next hread =>
          refine ⟨fun h => (by cases h), fun h => ?_⟩
          obtain ⟨date, hdate, _⟩ := h.1.unexpired text hsome hne
          cases hread.symm.trans hdate
        · next date hread =>
          split
          · next hpast =>
            refine ⟨fun h => (by cases h), fun h => ?_⟩
            obtain ⟨other, hother, hle⟩ := h.1.unexpired text hsome hne
            cases hread.symm.trans hother
            omega
          · next hfuture =>
            rw [hstored]
            refine ⟨fun h => ⟨hin (fun other hother _ => ?_), h⟩, fun h => h.2⟩
            cases hsome.symm.trans hother
            exact ⟨date, hread, by omega⟩

theorem ensureMediaReviewAllowsUse_ok {assetId : AssetId} :
    ensureMediaReviewAllowsUse decisions tenantId assetId sha = .ok () ↔
      latestDecision decisions tenantId assetId sha ≠ some .rejected := by
  unfold ensureMediaReviewAllowsUse latestDecision
  cases (mediaReviewHistory decisions tenantId assetId sha).head? with
  | none => simp
  | some entry =>
    by_cases hrejected : entry.decision = .rejected
    · simp [hrejected]
    · simp [hrejected]

/-- The asset that a usage refers to, with the hash that the manifest has, rights in force, and a
file. -/
structure Present (assets : Table AssetId MediaAsset) (env : Env) (tenantId : TenantId)
    (usage : Usage) (asset : MediaAsset) : Prop where
  found : findAsset assets tenantId usage.assetId = some asset
  verified : verifiedMediaHash env.today asset = .ok usage.expectedSha256
  file : env.isFile asset.path = true

theorem assetUsageStatus_verified :
    assetUsageStatus env (findAsset assets tenantId usage.assetId) usage.expectedSha256 = .verified ↔
      ∃ asset, Present assets env tenantId usage asset := by
  constructor
  · intro h
    cases hfound : findAsset assets tenantId usage.assetId with
    | none => rw [hfound] at h; cases h
    | some asset =>
      rw [hfound] at h
      unfold assetUsageStatus at h
      cases hverified : verifiedMediaHash env.today asset with
      | error e => simp only [hverified] at h; cases h
      | ok sha =>
        simp only [hverified] at h
        by_cases hsha : sha = usage.expectedSha256
        · rw [if_neg (not_not.mpr hsha), assetPath] at h
          by_cases hfile : env.isFile asset.path = true
          · exact ⟨asset, hfound, hsha ▸ hverified, hfile⟩
          · rw [if_neg hfile] at h
            cases h
        · rw [if_pos hsha] at h
          cases h
  · rintro ⟨asset, hfound, hverified, hfile⟩
    simp [assetUsageStatus, hfound, hverified, assetPath, hfile]

/-- The gate of the media passes when every asset of the manifest is present. -/
theorem manifestMediaComplianceBlockers_eq_nil :
    manifestMediaComplianceBlockers assets env tenantId manifest = [] ↔
      ∀ usage ∈ manifestAssetUsage manifest, ∃ asset, Present assets env tenantId usage asset := by
  rw [manifestMediaComplianceBlockers, List.filterMap_eq_nil_iff]
  refine forall₂_congr (fun usage _ => ?_)
  rw [← assetUsageStatus_verified]
  dsimp only
  split
  · next h => exact ⟨fun _ => h, fun _ => rfl⟩
  · next h => exact ⟨fun he => (by cases he), fun he => absurd he h⟩

theorem buildAsset_isOk (hfound : findAsset assets tenantId usage.assetId = some asset) :
    (∃ built, buildAsset decisions env tenantId usage.assetId asset usage.expectedSha256
        = .ok built) ↔ Present assets env tenantId usage asset ∧
      latestDecision decisions tenantId usage.assetId usage.expectedSha256 ≠ some .rejected := by
  rw [← ensureMediaReviewAllowsUse_ok]
  unfold buildAsset
  constructor
  · rintro ⟨built, h⟩
    cases hverified : verifiedMediaHash env.today asset with
    | error e => simp only [hverified] at h; cases h
    | ok sha =>
      simp only [hverified] at h
      by_cases hsha : sha = usage.expectedSha256
      · subst hsha
        rw [if_neg (not_not.mpr rfl), assetPath] at h
        cases hreview : ensureMediaReviewAllowsUse decisions tenantId usage.assetId
            usage.expectedSha256 with
        | error e => rw [hreview] at h; cases h
        | ok _ =>
          by_cases hfile : env.isFile asset.path = true
          · exact ⟨⟨hfound, hverified, hfile⟩, rfl⟩
          · rw [if_neg hfile, hreview] at h
            cases h
      · rw [if_pos hsha] at h
        cases h
  · rintro ⟨⟨_, hverified, hfile⟩, hreview⟩
    exact ⟨⟨usage.assetId, asset.path, usage.expectedSha256, asset.contentType⟩, by
      simp [hverified, hreview, assetPath, hfile]⟩

/-! ## The expected hashes -/

theorem lookup_append_single {xs : List (AssetId × String)} {k : AssetId} {v : String}
    (h : xs.lookup k = none) (j : AssetId) :
    (xs ++ [(k, v)]).lookup j = if j = k then some v else xs.lookup j := by
  rw [List.lookup_append]
  by_cases hj : j = k
  · rw [if_pos hj, hj, h]
    simp
  · rw [if_neg hj]
    simp [List.lookup_cons, beq_false_of_ne hj]

/-- The expected hashes have the hash of each usage, and nothing that is not one. -/
theorem expectedHashes_spec {usages : List Usage} {expected result : List (AssetId × String)}
    (h : expectedHashes expected usages = some result) :
    (∀ k v, expected.lookup k = some v → result.lookup k = some v) ∧
      (∀ usage ∈ usages, result.lookup usage.assetId = some usage.expectedSha256) ∧
      ∀ e ∈ result, e ∈ expected ∨ ∃ usage ∈ usages, e = (usage.assetId, usage.expectedSha256) := by
  induction usages generalizing expected with
  | nil =>
    cases h
    exact ⟨fun _ _ hk => hk, fun _ hu => (by cases hu), fun _ he => Or.inl he⟩
  | cons usage rest ih =>
    rw [expectedHashes] at h
    split at h
    · next hnone =>
      obtain ⟨hkept, hrest, hfrom⟩ := ih h
      refine ⟨fun k v hk => hkept k v ?_, fun u hu => ?_, fun e he => ?_⟩
      · rw [lookup_append_single hnone]
        split
        · next heq => rw [heq, hnone] at hk; cases hk
        · exact hk
      · rcases List.mem_cons.mp hu with rfl | hu
        · exact hkept _ _ (by rw [lookup_append_single hnone, if_pos rfl])
        · exact hrest u hu
      · rcases hfrom e he with hold | ⟨u, hu, rfl⟩
        · rcases List.mem_append.mp hold with hold | hnew
          · exact .inl hold
          · exact .inr ⟨usage, List.mem_cons_self .., List.mem_singleton.mp hnew⟩
        · exact .inr ⟨u, List.mem_cons_of_mem _ hu, rfl⟩
    · next existing hsome =>
      split at h
      · next heq =>
        obtain ⟨hkept, hrest, hfrom⟩ := ih h
        refine ⟨hkept, fun u hu => ?_, fun e he => ?_⟩
        · rcases List.mem_cons.mp hu with rfl | hu
          · exact hkept _ _ (heq ▸ hsome)
          · exact hrest u hu
        · exact (hfrom e he).imp_right (fun ⟨u, hu, hue⟩ =>
            ⟨u, List.mem_cons_of_mem _ hu, hue⟩)
      · cases h

/-- Usages that agree on the hash of every asset are not in conflict. -/
theorem expectedHashes_of_agree {hash : AssetId → String} {usages : List Usage}
    {expected : List (AssetId × String)}
    (hexpected : ∀ k v, expected.lookup k = some v → v = hash k)
    (husages : ∀ usage ∈ usages, usage.expectedSha256 = hash usage.assetId) :
    ∃ result, expectedHashes expected usages = some result := by
  induction usages generalizing expected with
  | nil => exact ⟨expected, rfl⟩
  | cons usage rest ih =>
    have hrest := fun u hu => husages u (List.mem_cons_of_mem _ hu)
    have hhead := husages usage (List.mem_cons_self ..)
    rw [expectedHashes]
    split
    · next hnone =>
      refine ih (fun k v hk => ?_) hrest
      rw [lookup_append_single hnone] at hk
      split at hk
      · next heq => rw [heq, ← hhead]; exact (Option.some.inj hk).symm
      · exact hexpected k v hk
    · next existing hsome =>
      rw [if_pos ((hexpected _ _ hsome).trans hhead.symm)]
      exact ih hexpected hrest

/-- **What the check before a build adds.** A manifest passes it when it passes the gate before a
publication and no decision in force rejects one of its assets. -/
theorem buildAssetsForManifest_isOk :
    (∃ built, buildAssetsForManifest assets decisions env tenantId manifest = .ok built) ↔
      manifestMediaComplianceBlockers assets env tenantId manifest = [] ∧
        ∀ usage ∈ manifestAssetUsage manifest,
          latestDecision decisions tenantId usage.assetId usage.expectedSha256
            ≠ some .rejected := by
  rw [manifestMediaComplianceBlockers_eq_nil, ← forall₂_and]
  unfold buildAssetsForManifest
  constructor
  · rintro ⟨built, h⟩ usage husage
    split at h
    · cases h
    · next expected hexpected =>
      obtain ⟨_, hhashes, _⟩ := expectedHashes_spec hexpected
      split_ifs at h
      obtain ⟨l₁, l₂, hsplit, _⟩ := List.lookup_eq_some_iff.mp (hhashes usage husage)
      have hmem : (usage.assetId, usage.expectedSha256) ∈ expected := by
        rw [hsplit]
        exact List.mem_append_right _ (List.mem_cons_self ..)
      obtain ⟨y, hy⟩ := mapM_isOk_iff.mp ⟨built, h⟩ _ hmem
      dsimp only at hy
      split at hy
      · cases hy
      · next asset hfound =>
        split at hy
        · next found hbuilt =>
          obtain ⟨hpresent, hreview⟩ := (buildAsset_isOk hfound).mp ⟨found, hbuilt⟩
          exact ⟨⟨asset, hpresent⟩, hreview⟩
        · cases hy
  · intro h
    let hash := fun id => ((findAsset assets tenantId id).map (·.storedSha256)).getD ""
    obtain ⟨expected, hexpected⟩ : ∃ expected,
        expectedHashes [] (manifestAssetUsage manifest) = some expected :=
      @expectedHashes_of_agree hash _ [] (fun _ _ hk => by cases hk) (fun usage husage => by
        change usage.expectedSha256 =
          ((findAsset assets tenantId usage.assetId).map (·.storedSha256)).getD ""
        obtain ⟨⟨asset, hfound, hverified, _⟩, _⟩ := h usage husage
        rw [hfound, Option.map_some, Option.getD_some, (verifiedMediaHash_ok.mp hverified).2.2])
    rw [hexpected]
    obtain ⟨_, _, hfrom⟩ := expectedHashes_spec hexpected
    have hall : ∀ e ∈ expected, ∃ asset built, findAsset assets tenantId e.1 = some asset ∧
        buildAsset decisions env tenantId e.1 asset e.2 = .ok built := by
      intro e he
      rcases hfrom e he with hnil | ⟨usage, husage, rfl⟩
      · cases hnil
      obtain ⟨⟨asset, hpresent⟩, hreview⟩ := h usage husage
      obtain ⟨built, hbuilt⟩ := (buildAsset_isOk hpresent.found).mpr ⟨hpresent, hreview⟩
      exact ⟨asset, built, hpresent.found, hbuilt⟩
    dsimp only
    rw [if_neg (fun hany => ?_)]
    · refine mapM_isOk_iff.mpr (fun e he => ?_)
      obtain ⟨asset, built, hfound, hbuilt⟩ := hall e he
      exact ⟨built, by rw [hfound]; simp only [hbuilt]⟩
    · obtain ⟨e, he, hnone⟩ := List.any_eq_true.mp hany
      obtain ⟨asset, _, hfound, _⟩ := hall e he
      rw [hfound] at hnone
      cases hnone

end MegaPanel.MediaReview

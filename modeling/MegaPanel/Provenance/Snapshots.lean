import MegaPanel.Candidate.Agreement
import MegaPanel.Provenance.Model

set_option autoImplicit false

/-! # What a build carries

`S slug hash` says that the page content with this hash is vouched for under this slug. A row, a
frozen input and the metadata of a build are sound when they index only what is vouched for, and
say so by the right hash. Freezing sound rows gives a sound input, building it gives sound
metadata, and projecting these gives sound rows.
-/

namespace MegaPanel.Provenance

open MegaPanel.Lib MegaPanel.Lib.Text MegaPanel.Candidate

variable (S : String → String → Prop)

/-! ## Soundness -/

def RowSound (row : SitePage) : Prop :=
  row.indexState = .indexed → ∃ page, row.manifest = some page ∧
    row.indexSourceHash = some (draftManifestHash page) ∧ S row.slug (draftManifestHash page)

/-- The index state that a build of the input gives to a page that is not thin is vouched for. -/
def SnapshotSound (snapshot : Snapshot) : Prop :=
  (snapshot.manifest.pages.map PageManifest.slug).Nodup → ∀ page ∈ snapshot.manifest.pages,
    (dictGet snapshot.indexStates page.slug).getD page.indexState = .indexed →
      dictGet snapshot.sourceHashes page.slug = some (draftManifestHash page) ∧
        S page.slug (draftManifestHash page)

def isIndexed (metadata : List (String × Json)) : Bool :=
  isText (field metadata "index_state") (fun s => decide (s = "indexed"))

/-- Metadata that the check accepts index only what is vouched for. -/
def MetadataSound (manifest : SiteManifest) (metadata : List Json) : Prop :=
  ∀ bySlug, validatePageMetadataSnapshot (.list metadata)
      (some (manifest.pages.map PageManifest.slug)) = .ok bySlug →
    ∀ page ∈ manifest.pages, ∀ entries, dictGet bySlug page.slug = some (.dict entries) →
      isIndexed entries = true →
        field entries "source_hash" = .str (draftManifestHash page) ∧
          S page.slug (draftManifestHash page)

structure BuildSound (build : Build) : Prop where
  input : SnapshotSound S build.inputSnapshot
  metadata : ∀ metadata, build.pageMetadata = some metadata →
    MetadataSound S build.manifestSnapshot metadata

variable {S} {S' : String → String → Prop}

variable {row : SitePage}

theorem RowSound.mono (hS : ∀ slug hash, S slug hash → S' slug hash) (h : RowSound S row) :
    RowSound S' row := by
  intro hindexed
  obtain ⟨page, hpage, hhash, hvouched⟩ := h hindexed
  exact ⟨page, hpage, hhash, hS _ _ hvouched⟩

variable {snapshot : Snapshot}

theorem SnapshotSound.mono (hS : ∀ slug hash, S slug hash → S' slug hash)
    (h : SnapshotSound S snapshot) : SnapshotSound S' snapshot := by
  intro hn page hpage hindexed
  obtain ⟨hhash, hvouched⟩ := h hn page hpage hindexed
  exact ⟨hhash, hS _ _ hvouched⟩

theorem BuildSound.mono (hS : ∀ slug hash, S slug hash → S' slug hash) {build : Build}
    (h : BuildSound S build) : BuildSound S' build where
  input := h.input.mono hS
  metadata metadata hmetadata bySlug hcheck page hpage entries hentries hindexed := by
    obtain ⟨hhash, hvouched⟩ :=
      h.metadata metadata hmetadata bySlug hcheck page hpage entries hentries hindexed
    exact ⟨hhash, hS _ _ hvouched⟩

/-! ## Freezing -/

variable {page : PageManifest}

section

variable {siteId : SiteId} {projectId : ProjectId} {promotions : List PageIndexPromotion}
  {rows : List SitePage}

theorem existingPage_some {slug : String} (h : existingPage rows slug = some row) :
    row ∈ rows ∧ row.slug = slug := by
  obtain ⟨row', hmem, heq⟩ := List.mem_map.mp (dictGet_eq_some h)
  obtain ⟨hslug, rfl⟩ := Prod.mk.inj heq
  exact ⟨hmem, hslug⟩

/-- **The three rules**: a page is indexed by a promotion of its content or by a row that is
indexed with its content. A row that is indexed without a hash would be a third way, but is not
sound. -/
theorem decision_vouched (hpromotions : ∀ p ∈ promotions, p.siteId = siteId → S p.slug p.sourceHash)
    (hrows : ∀ row ∈ rows, RowSound S row)
    (h : (decision siteId projectId promotions rows page).indexState = .indexed) :
    S page.slug (draftManifestHash page) := by
  by_cases hpromotion :
      (approvedPromotion siteId projectId promotions (page.slug, draftManifestHash page)).isSome
  · obtain ⟨p, hp⟩ := Option.isSome_iff_exists.mp hpromotion
    obtain ⟨hmem, hsite, _, hkey⟩ := approvedPromotion_some hp
    obtain ⟨hslug, hhash⟩ := Prod.mk.inj hkey
    rw [← hslug, ← hhash]
    exact hpromotions p hmem hsite
  · have hinherited : ∃ row, existingPage rows page.slug = some row ∧
        (legacyMatches row (draftManifestHash page)
          || currentPromotion (some row) (draftManifestHash page)) = true := by
      unfold decision pageDecision at h
      dsimp only at h
      split at h
      · next hrule =>
        simp only [hpromotion, Bool.false_or] at hrule
        cases hrow : existingPage rows page.slug with
        | none =>
          rw [hrow] at hrule
          cases hrule
        | some row =>
          rw [hrow] at hrule
          exact ⟨row, rfl, hrule⟩
      · cases h
    obtain ⟨row, hrow, hrule⟩ := hinherited
    obtain ⟨hmem, hslug⟩ := existingPage_some hrow
    have hindexed : row.indexState = .indexed := by
      simp only [legacyMatches, currentPromotion, Bool.or_eq_true, Bool.and_eq_true,
        decide_eq_true_eq] at hrule
      exact hrule.elim (fun hlegacy => hlegacy.1.1) (fun hcurrent => hcurrent.1)
    obtain ⟨page', _, hhash, hvouched⟩ := hrows row hmem hindexed
    -- the row has a hash, so it is not a legacy row, and its hash is that of the page
    have hsame : draftManifestHash page' = draftManifestHash page := by
      simpa [legacyMatches, currentPromotion, hindexed, hhash] using hrule
    rwa [← hslug, ← hsame]

theorem freeze_sound {siteManifest : Option SiteManifest} {authorBlockers : List String}
    (h : freezeCandidateBuildInput siteId projectId siteManifest authorBlockers promotions rows
      = .ok snapshot) (hpromotions : ∀ p ∈ promotions, p.siteId = siteId → S p.slug p.sourceHash)
    (hrows : ∀ row ∈ rows, RowSound S row) : SnapshotSound S snapshot := by
  obtain ⟨_, hsnapshot⟩ := freezeCandidateBuildInput_ok h
  intro hn page hpage hindexed
  have hslugs : ((snapshot.manifest.pages.map (decision siteId projectId promotions rows)).map
      PageDecision.slug).Nodup := by
    rw [List.map_map]
    simpa only [Function.comp_def, decision_slug] using hn
  have hmem := List.mem_map_of_mem (f := decision siteId projectId promotions rows) hpage
  have hstate : dictGet snapshot.indexStates page.slug =
      some (decision siteId projectId promotions rows page).indexState := by
    rw [hsnapshot, ← @decision_slug siteId projectId promotions rows page]
    exact dictGet_map _ _ hslugs hmem
  have hhash : dictGet snapshot.sourceHashes page.slug = some (draftManifestHash page) := by
    rw [hsnapshot, ← @decision_slug siteId projectId promotions rows page,
      ← @decision_sourceHash siteId projectId promotions rows page]
    exact dictGet_map _ _ hslugs hmem
  rw [hstate, Option.getD_some] at hindexed
  exact ⟨hhash, decision_vouched hpromotions hrows hindexed⟩

end

/-! ## Building -/

variable {render : PageManifest → String}

theorem buildPage_indexed {states : List (String × IndexState)}
    (h : (buildPage render states page).1.indexState = .indexed) :
    (dictGet states page.slug).getD page.indexState = .indexed := by
  simp only [buildPage] at h
  split_ifs at h
  exact h

section

variable (m : PageMeta) (sourceHash : String) (promotedAt : Option String)
  (promotion : Option FrozenPromotion)

theorem isIndexed_entry :
    isIndexed (m.entries ++ sourceEntries sourceHash promotedAt promotion) = true ↔
      m.indexState = .indexed := by
  have hstate : field (m.entries ++ sourceEntries sourceHash promotedAt promotion) "index_state"
      = .str m.indexState.value := by
    simp [field, PageMeta.entries, Json.get?]
  rw [isIndexed, hstate, isText_str, decide_eq_true_eq, value_eq_indexed]

theorem sourceHash_entry :
    field (m.entries ++ sourceEntries sourceHash promotedAt promotion) "source_hash"
      = .str sourceHash := by
  cases promotion <;> simp [field, PageMeta.entries, sourceEntries, Json.get?]

end

variable {result : List PageMeta} {metadata : List Json}

/-- The metadata of a build, page by page. -/
theorem pageMetadata_ok (h : pageMetadataFromCandidateResult result snapshot = .ok metadata) :
    metadata = entryList id (fun m => (dictGet snapshot.sourceHashes m.slug).getD "")
      (fun m => (dictGet snapshot.promotedAt m.slug).getD none)
      (fun m => dictGet snapshot.indexPromotions m.slug) result := by
  refine mapM_ok h _ (fun m _ item hitem => ?_)
  rw [pageMetadataItem] at hitem
  split at hitem
  · next sourceHash promotedAt hsource hpromoted =>
    cases hitem
    simp only [hsource, hpromoted, Option.getD_some, id]
  · cases hitem

/-- **A build of a sound input has sound metadata.** -/
theorem build_sound {htmlSitemap : String}
    (hbuild : Candidate.build render htmlSitemap snapshot.manifest snapshot.indexStates
      = .ok result) (hmetadata : pageMetadataFromCandidateResult result snapshot = .ok metadata)
    (h : SnapshotSound S snapshot) : MetadataSound S snapshot.manifest metadata := by
  intro bySlug hcheck page hpage entries hentries hindexed
  rw [pageMetadata_ok hmetadata, build_ok hbuild] at hcheck
  obtain ⟨hresult, hn⟩ := validate_entryList hcheck
  rw [List.map_map] at hn
  have hslugs : (snapshot.manifest.pages.map PageManifest.slug).Nodup := hn
  have hmem : (buildPage render snapshot.indexStates page).1 ∈
      snapshot.manifest.pages.map (fun page => (buildPage render snapshot.indexStates page).1) :=
    List.mem_map_of_mem hpage
  have hitem := dictGet_map (fun m : PageMeta => m.slug) (fun m : PageMeta => entryJson m
    ((dictGet snapshot.sourceHashes m.slug).getD "")
    ((dictGet snapshot.promotedAt m.slug).getD none)
    (dictGet snapshot.indexPromotions m.slug)) (by rw [List.map_map]; exact hn) hmem
  rw [hresult] at hentries
  obtain rfl : _ = entries := by
    have hsame := hitem.symm.trans hentries
    exact Json.dict.inj (Option.some.inj hsame)
  rw [isIndexed_entry] at hindexed
  obtain ⟨hhash, hvouched⟩ := h hslugs page hpage (buildPage_indexed hindexed)
  have hsource : dictGet snapshot.sourceHashes (buildPage render snapshot.indexStates page).1.slug
      = some (draftManifestHash page) := hhash
  rw [sourceHash_entry, hsource]
  exact ⟨rfl, hvouched⟩

/-! ## Projecting -/

theorem readIndexState_eq_indexed {v : Json} :
    readIndexState v = .indexed ↔ isText v (fun s => decide (s = "indexed")) = true := by
  rw [readIndexState]
  split
  · next h => exact iff_of_true rfl h
  · next h =>
    refine iff_of_false ?_ h
    split <;> nofun

/-- **The rows for a sound build are sound.** -/
theorem projection_sound {manifest : SiteManifest} {bySlug : List (String × Json)}
    {targets : List (String × SitePage)} (h : MetadataSound S manifest metadata)
    (hcheck : validatePageMetadataSnapshot (.list metadata)
      (some (manifest.pages.map PageManifest.slug)) = .ok bySlug)
    (htargets : projection manifest bySlug = .ok targets) :
    ∀ e ∈ targets, e.2.slug = e.1 ∧ RowSound S e.2 := by
  intro e he
  obtain ⟨page, hpage, hproject⟩ := mapM_mem htargets he
  split at hproject
  · next entries hentries =>
    cases hproject
    refine ⟨rfl, fun hindexed => ?_⟩
    have hisIndexed : isIndexed entries = true := readIndexState_eq_indexed.mp hindexed
    obtain ⟨hhash, hvouched⟩ := h bySlug hcheck page hpage entries hentries hisIndexed
    refine ⟨page, rfl, ?_, hvouched⟩
    rw [isIndexed] at hisIndexed
    simp only [projectPage, hisIndexed, if_true, hhash, readText]
  · cases hproject
  · cases hproject

end MegaPanel.Provenance

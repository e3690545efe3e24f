import MegaPanel.Candidate.Input

set_option autoImplicit false

/-! # The metadata of a build and its check

A build that is `ready` can be published when the check accepts the metadata that was written
for it. Writer and check agree page by page, except in two places: a page that came out thin
loses its index state but keeps the time of its promotion, and a promotion is matched whatever
its reason has become.
-/

namespace MegaPanel.Candidate

open MegaPanel.Lib MegaPanel.Lib.Text

/-! ## What is decided about a page -/

/-- The row was indexed before promotions existed, with this content. -/
def legacyMatches (row : SitePage) (sourceHash : String) : Bool :=
  row.indexState = .indexed && row.indexSourceHash = none
    && row.manifest.map draftManifestHash = some sourceHash

theorem legacyCurrent_ok {previous : Option SitePage} {sourceHash : String} {legacy : Bool}
    (h : legacyCurrent previous sourceHash = .ok legacy) :
    legacy = previous.any (legacyMatches · sourceHash) := by
  cases previous with
  | none =>
    cases h
    rfl
  | some row =>
    rw [legacyCurrent] at h
    by_cases hlegacy : row.indexState = .indexed ∧ row.indexSourceHash = none
    · rw [if_pos hlegacy] at h
      cases hpage : row.manifest with
      | none => rw [hpage] at h; cases h
      | some page =>
        rw [hpage] at h
        cases h
        simp [legacyMatches, hlegacy, hpage]
    · rw [if_neg hlegacy] at h
      cases h
      simp only [Option.any_some, legacyMatches]
      rw [not_and] at hlegacy
      by_cases hi : row.indexState = .indexed
      · simp [hi, hlegacy hi]
      · simp [hi]

section

variable (siteId : SiteId) (projectId : ProjectId) (promotions : List PageIndexPromotion)
  (rows : List SitePage)

/-- The decision on a page, when reading the rows raises nothing. -/
def decision (page : PageManifest) : PageDecision :=
  pageDecision page
    (approvedPromotion siteId projectId promotions (page.slug, draftManifestHash page))
    (existingPage rows page.slug)
    ((existingPage rows page.slug).any (legacyMatches · (draftManifestHash page)))

variable {siteId projectId promotions rows}

variable {manifest : SiteManifest}

theorem candidateIndexStates_ok {decisions : List PageDecision}
    (h : candidateIndexStates siteId projectId manifest promotions rows = .ok decisions) :
    decisions = manifest.pages.map (decision siteId projectId promotions rows) := by
  refine mapM_ok h _ (fun page _ d hd => ?_)
  rw [decidePage] at hd
  cases hlegacy : legacyCurrent (existingPage rows page.slug) (draftManifestHash page) with
  | error raised => simp [hlegacy] at hd
  | ok legacy =>
    simp only [hlegacy, Except.ok.injEq] at hd
    rw [← hd, decision, legacyCurrent_ok hlegacy]

theorem freezeCandidateBuildInput_ok {siteManifest : Option SiteManifest}
    {authorBlockers : List String} {snapshot : Snapshot}
    (h : freezeCandidateBuildInput siteId projectId siteManifest authorBlockers promotions rows
      = .ok snapshot) :
    siteManifest = some snapshot.manifest ∧ snapshot = snapshotOf snapshot.manifest
      (snapshot.manifest.pages.map (decision siteId projectId promotions rows)) := by
  cases siteManifest with
  | none => cases h
  | some manifest =>
    rw [freezeCandidateBuildInput] at h
    by_cases hauthors : authorBlockers ≠ []
    · simp only [if_pos hauthors] at h
      cases h
    · simp only [if_neg hauthors] at h
      cases hdecisions : candidateIndexStates siteId projectId manifest promotions rows with
      | error raised => rw [hdecisions] at h; cases h
      | ok decisions =>
        rw [hdecisions] at h
        cases h
        exact ⟨rfl, by rw [candidateIndexStates_ok hdecisions]; rfl⟩

variable {p : PageIndexPromotion}

/-- A promotion that is found bears the slug and the hash it was looked up with. -/
theorem approvedPromotion_some {key : String × String}
    (h : approvedPromotion siteId projectId promotions key = some p) :
    p ∈ promotions ∧ p.siteId = siteId ∧ p.projectId = projectId ∧ (p.slug, p.sourceHash) = key := by
  obtain ⟨q, hq, heq⟩ := List.mem_map.mp (dictGet_eq_some h)
  obtain ⟨hkey, rfl⟩ := Prod.mk.inj heq
  rw [sitePromotions, List.mem_mergeSort, List.mem_filter] at hq
  obtain ⟨hmem, hscope⟩ := hq
  rw [Bool.and_eq_true, decide_eq_true_eq, decide_eq_true_eq] at hscope
  exact ⟨hmem, hscope.2, hscope.1, hkey⟩

theorem decision_slug (page : PageManifest) :
    (decision siteId projectId promotions rows page).slug = page.slug := by
  unfold decision pageDecision
  dsimp only
  split <;> rfl

theorem decision_sourceHash (page : PageManifest) :
    (decision siteId projectId promotions rows page).sourceHash = draftManifestHash page := by
  unfold decision pageDecision
  dsimp only
  split <;> rfl

variable {page : PageManifest}

variable {states : List (String × IndexState)}

/-- A build that returns reports every page of its manifest in order. -/
theorem build_ok {render : PageManifest → String} {htmlSitemap : String} {result : List PageMeta}
    (h : build render htmlSitemap manifest states = .ok result) :
    result = manifest.pages.map (fun page => (buildPage render states page).1) := by
  unfold build at h
  dsimp only at h
  split at h
  · cases h
  cases h
  rw [List.map_map]
  rfl

end

/-! ## One page -/

def homePage : PageManifest := ⟨"/", .noindex, "\x7b\"slug\":\"/\"\x7d"⟩

/-- A document with hardly any text. -/
def document (_ : PageManifest) : String :=
  "<head><link rel=\"canonical\" href=\"https://example.ru/\"></head><p>Скоро</p>"

end MegaPanel.Candidate

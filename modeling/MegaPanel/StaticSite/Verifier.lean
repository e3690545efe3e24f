import MegaPanel.Candidate.Metadata
import MegaPanel.StaticSite.Build

set_option autoImplicit false

/-! # The check of a stored release

`_verify_release` (`scripts/backfill_site_build_page_metadata.py`) reads a release back before the
metadata of its build is filled in: the marker and the metadata, the page at each path with its
length, its hash and its links, and the sitemap. Whatever it finds wrong is a `ValueError`.

`loads` is `json.loads`, or nothing for a text that is no JSON; `locs` is as for the build.
-/

namespace MegaPanel.StaticSite

open MegaPanel.Lib MegaPanel.Lib.Text
open MegaPanel.Candidate (canonicalPagePath contains noindexMeta field sameText isText
  validatePageMetadataSnapshot)

/-! ## What is read -/

/-- What is at a path of a release directory; a link or a directory is refused. -/
inductive Artifact
  | missing
  | refused
  | file (data : List UInt8)

/-- What is at the path of the release. -/
inductive ReleaseRoot
  | missing
  | refused
  | directory (artifacts : String → Artifact)

/-- A row of `site_builds`; the manifest is what `model_validate` makes of the snapshot. -/
structure BuildRow where
  siteId : Uuid
  tenantId : TenantId
  buildHash : Option String
  manifest : Option SiteManifest
  pagesBuilt : Int

def rejected {α : Type} (code : String) : Except Candidate.Raised α := .error (.valueError code)

/-- `_safe_file`, with the code for a file that is not there. -/
def safeFile (absent : String) : Artifact → Except Candidate.Raised (List UInt8)
  | .missing => rejected absent
  | .refused => rejected "unsafe_release_artifact"
  | .file data => .ok data

/-- `read_text(encoding="utf-8")`, with the code for bytes that are no UTF-8. -/
def decoded (invalid : String) (data : List UInt8) : Except Candidate.Raised String :=
  match readText data with
  | none => rejected invalid
  | some text => .ok text

/-! ## Canonical links -/

def linkOpen : List Char := "<link rel=\"canonical\" href=\"".toList

/-- The link that starts here: its URL, which is not empty and ends at the next quote. -/
def linkHere (text : List Char) : Option (List Char) :=
  let url := (text.drop linkOpen.length).takeWhile (· ≠ '"')
  if linkOpen.isPrefixOf text ∧ url ≠ [] ∧
      "\">".toList.isPrefixOf (text.drop (linkOpen.length + url.length)) then some url
  else none

/-- The scan of `re.findall`; the number says how many characters belong to the last match. -/
def linksFrom : Nat → List Char → List String
  | _, [] => []
  | skip + 1, _ :: cs => linksFrom skip cs
  | 0, c :: cs =>
    match linkHere (c :: cs) with
    | some url => String.ofList url :: linksFrom (linkOpen.length + url.length + 1) cs
    | none => linksFrom 0 cs

/-- `_canonical_urls` -/
def canonicalUrls (html : List Char) : List String := linksFrom 0 html

/-! ## The release -/

def releaseArtifacts : ReleaseRoot → Except Candidate.Raised (String → Artifact)
  | .missing => rejected "missing_release_artifact"
  | .refused => rejected "unsafe_release_artifact"
  | .directory artifacts => .ok artifacts

/-- The marker is right, and this is what `pages_meta.json` holds. -/
def storedMetadata (loads : String → Option Json) (buildHash : String)
    (artifacts : String → Artifact) : Except Candidate.Raised Json := do
  let marker ← safeFile "missing_release_artifact" (artifacts "BUILD_HASH")
  let metadata ← safeFile "missing_release_artifact" (artifacts "pages_meta.json")
  let marker ← decoded "invalid_release_artifact_encoding" marker
  if strip marker ≠ buildHash then
    rejected "invalid_release_marker"
  else
    let metadata ← decoded "invalid_release_artifact_encoding" metadata
    match loads metadata with
    | none => rejected "invalid_pages_meta"
    | some raw => .ok raw

/-- The metadata by slug; a `ValueError` of the check becomes the script's own. -/
def checkedMetadata (manifest : SiteManifest) (raw : Json) :
    Except Candidate.Raised (List (String × Json)) :=
  match validatePageMetadataSnapshot raw (some (manifest.pages.map (·.slug))) with
  | .error (.valueError _) => rejected "invalid_pages_meta"
  | .error raised => .error raised
  | .ok bySlug => .ok bySlug

/-- `len(raw)` -/
def itemCount : Json → Nat
  | .list items => items.length
  | _ => 0

/-- The entries of an item; the check has made sure that it is a dictionary. -/
def itemEntries : Json → List (String × Json)
  | .dict entries => entries
  | _ => []

/-- `number == value` -/
def sameInt (number : Nat) (value : Json) : Bool :=
  match value with
  | .int n => n = number
  | _ => false

/-- The loop body over the pages: the URL of an indexed page. -/
def verifyPage (domain : String) (artifacts : String → Artifact) (turn : String × Json) :
    Except Candidate.Raised (Option String) := do
  let path ← canonicalPagePath turn.1
  let data ← safeFile "missing_page_artifact" (artifacts (outputPath path))
  let html ← decoded "invalid_release_artifact_encoding" data
  let item := itemEntries turn.2
  let expected := "https://" ++ domain ++ path
  if !sameInt html.length (field item "content_chars") then rejected "content_chars_mismatch"
  else if !sameText (.str (Candidate.contentHash html)) (field item "hash") then
    rejected "html_hash_mismatch"
  else if canonicalUrls html.toList ≠ [expected] then rejected "canonical_mismatch"
  else if isText (field item "index_state") (· = "indexed") then
    if contains html noindexMeta then rejected "robots_mismatch" else .ok (some expected)
  else if contains html noindexMeta then .ok none
  else rejected "robots_mismatch"

/-- The sitemap has these URLs, each once. -/
def verifySitemap (locs : String → Option (List String)) (artifacts : String → Artifact)
    (indexed : List String) : Except Candidate.Raised Unit := do
  let data ← safeFile "sitemap_mismatch" (artifacts "sitemap.xml")
  let text ← decoded "sitemap_mismatch" data
  match locs text with
  | none => rejected "sitemap_mismatch"
  | some urls =>
    if sameSet urls indexed && urls.length = indexed.dedup.length then .ok ()
    else rejected "sitemap_mismatch"

/-- `_BUILD_HASH.fullmatch(build.build_hash)` -/
def storedHash (row : BuildRow) : Except Candidate.Raised String :=
  match row.buildHash.filter Sha256.isSha256 with
  | none => rejected "invalid_build_hash"
  | some buildHash => .ok buildHash

def storedManifest (row : BuildRow) : Except Candidate.Raised SiteManifest :=
  match row.manifest with
  | none => rejected "invalid_manifest_snapshot"
  | some manifest => .ok manifest

/-- `_verify_release` -/
def verifyRelease (loads : String → Option Json) (locs : String → Option (List String))
    (row : BuildRow) (root : ReleaseRoot) : Except Candidate.Raised Json := do
  let buildHash ← storedHash row
  let manifest ← storedManifest row
  if manifest.siteId ≠ row.siteId ∨ manifest.tenantId ≠ row.tenantId then
    rejected "build_identity_mismatch"
  else
    let artifacts ← releaseArtifacts root
    let raw ← storedMetadata loads buildHash artifacts
    let bySlug ← checkedMetadata manifest raw
    if row.pagesBuilt ≠ 0 ∧ row.pagesBuilt ≠ itemCount raw then rejected "pages_built_mismatch"
    else
      let indexed ← bySlug.mapM (verifyPage manifest.domain artifacts)
      verifySitemap locs artifacts (indexed.filterMap id)
      .ok raw

/-! ## What a check that returns has seen -/

variable {data : List UInt8} {loads : String → Option Json} {artifacts : String → Artifact}
  {raw : Json} {locs : String → Option (List String)}

theorem safeFile_eq_ok {absent : String} {artifact : Artifact} :
    safeFile absent artifact = .ok data ↔ artifact = .file data := by
  cases artifact with
  | missing | refused => exact iff_of_false nofun nofun
  | file data' =>
    rw [safeFile, Except.ok.injEq, Artifact.file.injEq]

theorem decoded_eq_ok {invalid text : String} :
    decoded invalid data = .ok text ↔ readText data = some text := by
  rw [decoded]
  cases readText data with
  | none => exact iff_of_false nofun nofun
  | some text' => rw [Except.ok.injEq, Option.some.injEq]

/-- A file of a release that reads as this text. -/
def HasText (artifacts : String → Artifact) (path text : String) : Prop :=
  ∃ data, artifacts path = .file data ∧ readText data = some text

theorem storedMetadata_eq_ok {buildHash : String} :
    storedMetadata loads buildHash artifacts = .ok raw ↔
      ∃ marker metadata, HasText artifacts "BUILD_HASH" marker ∧
        HasText artifacts "pages_meta.json" metadata ∧ strip marker = buildHash ∧
        loads metadata = some raw := by
  unfold storedMetadata
  simp only [bind_eq_ok, safeFile_eq_ok]
  constructor
  · rintro ⟨marker, hmarker, metadata, hmetadata, text, htext, h⟩
    split at h
    · cases h
    · next hstrip =>
      obtain ⟨json, hjson, h⟩ := bind_eq_ok.mp h
      split at h
      · cases h
      · next hloads =>
        cases h
        exact ⟨text, json, ⟨marker, hmarker, decoded_eq_ok.mp htext⟩,
          ⟨metadata, hmetadata, decoded_eq_ok.mp hjson⟩, not_not.mp hstrip, hloads⟩
  · rintro ⟨text, json, ⟨marker, hmarker, htext⟩, ⟨metadata, hmetadata, hjson⟩, hstrip, hloads⟩
    refine ⟨marker, hmarker, metadata, hmetadata, text, decoded_eq_ok.mpr htext, ?_⟩
    rw [if_neg (not_not.mpr hstrip), bind_eq_ok]
    refine ⟨json, decoded_eq_ok.mpr hjson, ?_⟩
    rw [hloads]

theorem checkedMetadata_eq_ok {manifest : SiteManifest} {bySlug : List (String × Json)} :
    checkedMetadata manifest raw = .ok bySlug ↔
      validatePageMetadataSnapshot raw (some (manifest.pages.map (·.slug))) = .ok bySlug := by
  unfold checkedMetadata
  split
  · next h => exact iff_of_false nofun (by rw [h]; exact nofun)
  · next h => exact iff_of_false nofun (by rw [h]; exact nofun)
  · next h => rw [h]

/-- What the loop asks of a page: its text, its hash and length, its only canonical link, and the
robots tag unless it is indexed. -/
structure PageVerified (domain : String) (artifacts : String → Artifact) (slug : String)
    (item : List (String × Json)) (path html : String) : Prop where
  path_eq : canonicalPagePath slug = .ok path
  text : HasText artifacts (outputPath path) html
  chars : sameInt html.length (field item "content_chars") = true
  hash : sameText (.str (Candidate.contentHash html)) (field item "hash") = true
  canonical : canonicalUrls html.toList = ["https://" ++ domain ++ path]
  robots : contains html noindexMeta = !isText (field item "index_state") (· = "indexed")

theorem verifyPage_eq_ok {domain : String} {slug : String} {item : Json} {url : Option String} :
    verifyPage domain artifacts (slug, item) = .ok url ↔
      ∃ path html, PageVerified domain artifacts slug (itemEntries item) path html ∧
        url = if isText (field (itemEntries item) "index_state") (· = "indexed") then
          some ("https://" ++ domain ++ path) else none := by
  unfold verifyPage
  simp only [bind_eq_ok, safeFile_eq_ok, decoded_eq_ok]
  constructor
  · rintro ⟨path, hpath, data, hdata, html, hhtml, h⟩
    split at h
    · cases h
    split at h
    · cases h
    split at h
    · cases h
    next hchars hhash hcanonical =>
    rw [Bool.not_eq_true', Bool.not_eq_false] at hchars hhash
    refine ⟨path, html, ⟨hpath, ⟨data, hdata, hhtml⟩, hchars, hhash, not_not.mp hcanonical, ?_⟩, ?_⟩
    all_goals
      split at h <;> split at h
    all_goals cases h
    all_goals simp_all
  · rintro ⟨path, html, h, rfl⟩
    obtain ⟨data, hdata, hhtml⟩ := h.text
    refine ⟨path, h.path_eq, data, hdata, html, hhtml, ?_⟩
    rw [h.chars, h.hash, if_neg (by decide), if_neg (by decide), if_neg (not_not.mpr h.canonical),
      h.robots]
    cases isText (field (itemEntries item) "index_state") (· = "indexed") <;> rfl

theorem verifySitemap_eq_ok {indexed : List String} :
    verifySitemap locs artifacts indexed = .ok () ↔
      ∃ text urls, HasText artifacts "sitemap.xml" text ∧ locs text = some urls ∧
        sameSet urls indexed = true ∧ urls.length = indexed.dedup.length := by
  unfold verifySitemap
  simp only [bind_eq_ok, safeFile_eq_ok, decoded_eq_ok]
  constructor
  · rintro ⟨data, hdata, text, htext, h⟩
    split at h
    · cases h
    · next urls hurls =>
      split at h
      · next hsame =>
        rw [Bool.and_eq_true, decide_eq_true_iff] at hsame
        exact ⟨text, urls, ⟨data, hdata, htext⟩, hurls, hsame.1, hsame.2⟩
      · cases h
  · rintro ⟨text, urls, ⟨data, hdata, htext⟩, hurls, hsame, hlength⟩
    refine ⟨data, hdata, text, htext, ?_⟩
    rw [hurls]
    dsimp only
    rw [hsame, hlength, decide_eq_true rfl]
    rfl

/-- **What a check that returns has seen.** -/
structure ReleaseVerified (loads : String → Option Json) (locs : String → Option (List String))
    (row : BuildRow) (root : ReleaseRoot) (raw : Json) (buildHash : String)
    (manifest : SiteManifest) (artifacts : String → Artifact) (bySlug : List (String × Json))
    (indexed : List (Option String)) : Prop where
  hash : row.buildHash = some buildHash ∧ Sha256.isSha256 buildHash = true
  snapshot : row.manifest = some manifest
  identity : manifest.siteId = row.siteId ∧ manifest.tenantId = row.tenantId
  directory : root = .directory artifacts
  metadata : storedMetadata loads buildHash artifacts = .ok raw
  items : checkedMetadata manifest raw = .ok bySlug
  count : row.pagesBuilt = 0 ∨ row.pagesBuilt = itemCount raw
  pages : bySlug.mapM (verifyPage manifest.domain artifacts) = .ok indexed
  sitemap : verifySitemap locs artifacts (indexed.filterMap id) = .ok ()

theorem verifyRelease_eq_ok {row : BuildRow} {root : ReleaseRoot} :
    verifyRelease loads locs row root = .ok raw ↔
      ∃ buildHash manifest artifacts bySlug indexed,
        ReleaseVerified loads locs row root raw buildHash manifest artifacts bySlug indexed := by
  unfold verifyRelease
  constructor
  · intro h
    obtain ⟨buildHash, hhash, h⟩ := bind_eq_ok.mp h
    obtain ⟨manifest, hmanifest, h⟩ := bind_eq_ok.mp h
    have hrow : row.buildHash = some buildHash ∧ Sha256.isSha256 buildHash = true := by
      unfold storedHash at hhash
      split at hhash
      · cases hhash
      · next hfilter =>
        cases hhash
        exact Option.filter_eq_some_iff.mp hfilter
    have hsnapshot : row.manifest = some manifest := by
      unfold storedManifest at hmanifest
      split at hmanifest
      · cases hmanifest
      · next hsome =>
        cases hmanifest
        exact hsome
    split at h
    · cases h
    next hidentity =>
    obtain ⟨artifacts, hroot, h⟩ := bind_eq_ok.mp h
    obtain ⟨raw', hmetadata, h⟩ := bind_eq_ok.mp h
    obtain ⟨bySlug, hitems, h⟩ := bind_eq_ok.mp h
    split at h
    · cases h
    next hcount =>
    obtain ⟨indexed, hpages, h⟩ := bind_eq_ok.mp h
    obtain ⟨_, hsitemap, h⟩ := bind_eq_ok.mp h
    cases h
    have hdirectory : root = .directory artifacts := by
      cases root with
      | missing | refused => cases hroot
      | directory artifacts' =>
        cases hroot
        rfl
    rw [not_or, not_not, not_not] at hidentity
    exact ⟨buildHash, manifest, artifacts, bySlug, indexed, hrow, hsnapshot, hidentity, hdirectory,
      hmetadata, hitems, by tauto, hpages, hsitemap⟩
  · rintro ⟨buildHash, manifest, artifacts, bySlug, indexed, h⟩
    refine bind_eq_ok.mpr ⟨buildHash, ?_, bind_eq_ok.mpr ⟨manifest, ?_, ?_⟩⟩
    · rw [storedHash, Option.filter_eq_some_iff.mpr h.hash]
    · rw [storedManifest, h.snapshot]
    · have hidentity : ¬ (manifest.siteId ≠ row.siteId ∨ manifest.tenantId ≠ row.tenantId) := by
        rw [not_or, not_not, not_not]
        exact h.identity
      have hcount := h.count
      rw [if_neg hidentity, h.directory]
      refine bind_eq_ok.mpr ⟨artifacts, rfl, bind_eq_ok.mpr ⟨raw, h.metadata,
        bind_eq_ok.mpr ⟨bySlug, h.items, ?_⟩⟩⟩
      rw [if_neg (by tauto)]
      exact bind_eq_ok.mpr ⟨indexed, h.pages, bind_eq_ok.mpr ⟨(), h.sitemap, rfl⟩⟩

end MegaPanel.StaticSite

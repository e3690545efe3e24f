import MegaPanel.Crawl.Walk

set_option autoImplicit false

/-! # What a crawl requests

The purpose of the limits of a crawl, stated for what it requested (`Scoped`): URLs of one origin,
not too deep, none of them twice, none that `robots.txt` forbids to `*` or `sitepanelbot`, and
bounded numbers of sitemaps and of queued URLs. The crawl ends on every site, as its loops have
variants (`sitemapLoop`, `pageLoop`).

All of it holds on every site but the rules of `robots.txt`. A group of rules applies if any of the
lines `User-agent` that open it names the crawler (`groupRules`); `_robots_directives` lets each of
these lines overwrite what the one before it said, and drops the rules of a group whose last
`User-agent` is another one. `crawl_scoped_iff` says what this comes to. -/

namespace MegaPanel.Crawl

open MegaPanel.Lib MegaPanel.Lib.Url MegaPanel.Lib.Text MegaPanel.Ssrf

/-! ## The purpose -/

/-- The rules of the groups that apply. `opening` says that the line before was a `User-agent`, and
`applies` that the group read at the moment names the crawler. -/
def groupRulesFrom (lib : Library) (opening applies : Bool) : List Directive → List (List Char)
  | [] => []
  | d :: ds =>
    if d.key = "user-agent".toList then
      groupRulesFrom lib true ((opening && applies) || namesCrawler lib d.value) ds
    else
      (if d.key = "disallow".toList ∧ applies = true ∧ d.value ≠ [] then [d.value] else [])
        ++ groupRulesFrom lib false applies ds

def groupRules (lib : Library) (text : List Char) : List (List Char) :=
  groupRulesFrom lib false false (directives lib text)

/-- What `robots.txt` forbids, by the answer to its request. -/
def robotsRules (lib : Library) : Fetch (List Char) → List (List Char)
  | .response 200 text => groupRules lib text
  | _ => []

/-- What the requests of a crawl must be. -/
structure Scoped (lib : Library) (run : Run) (scope : CrawlScope) (robots : Fetch (List Char))
    (o : Outcome) : Prop where
  /-- The host ends where the path starts, and holds no credentials. -/
  plain : scope.Plain
  origin : ∀ item ∈ o.fetches, scope.Holds item.url
  depth : ∀ item ∈ o.fetches, (item.depth : Int) ≤ run.depthLimit
  once : (o.fetches.map (·.url)).Nodup
  allowed : ∀ item ∈ o.fetches, ∀ path, item.url = scope.origin ++ path →
    forbids (robotsRules lib robots) path = false
  sitemaps : o.sitemaps.length ≤ maxSitemaps
  queued : o.seen.Nodup ∧ o.seen.length ≤ maxSitemapUrls

/-- Where a crawl gets past `robots.txt` and may request a page at all, every path it can come to
that the groups forbid is forbidden by the rules that were kept. -/
def RulesKept (lib : Library) (run : Run) (scope : CrawlScope) (robots : Fetch (List Char)) :
    Prop :=
  match readRobots lib scope robots with
  | .error _ => True
  | .ok (disallowed, _) =>
    1 ≤ run.pageLimit → 0 ≤ run.depthLimit → ∀ path, Reachable scope path →
      storable (scope.origin ++ path) = true →
        forbids (robotsRules lib robots) path = true → forbids disallowed path = true

/-! ## On every site -/

section

variable {lib : Library} {run : Run} {scope : CrawlScope} {site : Site}

theorem finish_requests (s : Sitemaps) (c : CrawlState) :
    (finish scope site s c).fetches = c.fetches ∧
      (finish scope site s c).sitemaps = s.seen ∧
        (finish scope site s c).seen = c.frontier.seen := by
  unfold finish
  dsimp only
  split
  · exact ⟨rfl, rfl, rfl⟩
  · split <;> exact ⟨rfl, rfl, rfl⟩

/-- The rules that a crawl holds its URLs against are those of `robots.txt`. -/
theorem readSitemaps_rules {disallowed : List (List Char)} {sitemaps : List Url}
    (h : readRobots lib scope site.robots = .ok (disallowed, sitemaps)) :
    (readSitemaps lib run scope site).1 = disallowed := by
  unfold readSitemaps
  rw [h]

theorem readSitemaps_of_error {exit : Exit} (h : readRobots lib scope site.robots = .error exit) :
    (readSitemaps lib run scope site).2 = ⟨[], [], 0, ⟨[], []⟩, some exit⟩ := by
  unfold readSitemaps
  rw [h]

/-- A crawl that does not get past `robots.txt` requests no page. -/
theorem fetches_of_error {exit : Exit} (h : readRobots lib scope site.robots = .error exit) :
    (crawlPages lib run scope site).fetches = [] := by
  unfold crawlPages
  dsimp only
  rw [readSitemaps_of_error h, Loop.run_of_none]
  · rfl
  · rfl

/-- With no page to request or no depth to request it at, nothing is requested. -/
theorem fetches_of_limit (h : run.pageLimit < 1) :
    (crawlPages lib run scope site).fetches = [] := by
  have hstart : ∀ c : CrawlState, run.pageLimit ≤ c.progress.fetched →
      (pageLoop lib run scope site (readSitemaps lib run scope site).1).run c = c := by
    intro c hc
    refine Loop.run_of_none ?_
    show CrawlState.turn lib run scope site _ c = none
    unfold CrawlState.turn
    split
    · rfl
    split
    · rfl
    · rfl
  have hzero : ∀ s : Sitemaps, (startCrawl lib run scope (readSitemaps lib run scope site).1
      s).progress.fetched = 0 ∧ (startCrawl lib run scope (readSitemaps lib run scope site).1
      s).fetches = [] := by
    intro s
    unfold startCrawl
    dsimp only
    split
    · exact ⟨rfl, rfl⟩
    split <;> exact ⟨rfl, rfl⟩
  unfold crawlPages
  dsimp only
  rw [hstart _ (by rw [(hzero _).1]; push_cast; omega)]
  exact (hzero _).2

/-- A path of the scope is read back from its URL. -/
theorem allowed_path (hplain : scope.Plain) {path : List Char} (hpath : IsUrlPath path)
    {disallowed : List (List Char)} :
    isAllowedByRobots lib (scope.origin ++ path) disallowed =
      if lib.netlocValid scope.host then some (!forbids disallowed path) else none := by
  have hne : path ≠ [] := fun hnil => by
    rw [hnil] at hpath
    cases hpath.1
  unfold isAllowedByRobots
  rw [hplain.urlsplit_eq hpath]
  split
  · rw [Option.map_some, orSlash, if_neg hne]
  · rfl

/-- **The condition is enough.** -/
theorem scoped_of_rulesKept {robots : Fetch (List Char)} {outcome : Outcome}
    (hscope : normalizeRootUrl lib run.rootUrl = some scope)
    (hkept : RulesKept lib run scope robots) (hrobots : site.robots = robots)
    (h : runCompetitorCrawl lib run site = some outcome) :
    Scoped lib run scope robots outcome := by
  obtain ⟨hplain, hroot⟩ := normalizeRootUrl_scope hscope
  unfold runCompetitorCrawl at h
  rw [hscope, Option.map_some] at h
  obtain rfl := Option.some.inj h
  obtain ⟨hfetches, hsitemaps, hseen⟩ := @finish_requests scope site
    (readSitemaps lib run scope site).2 (crawlPages lib run scope site)
  have hmaps := @sound_readSitemaps lib run scope site hplain
  have hc := @sound_crawlPages lib run scope site hplain hroot
  have hadmitted : ∀ item ∈ (crawlPages lib run scope site).fetches,
      Admitted lib run scope (readSitemaps lib run scope site).1 item :=
    fun item hi => hc.admitted item (List.mem_append_left _ hi)
  refine ⟨hplain, ?_, ?_, ?_, ?_, ?_, ?_⟩
  · rw [hfetches]
    exact fun item hi => (hadmitted item hi).found.holds
  · rw [hfetches]
    exact fun item hi => (hadmitted item hi).depth
  · rw [hfetches]
    refine (hc.nodup.sublist hc.order).sublist ?_
    exact (List.sublist_append_left ..).map _
  · rw [hfetches]
    intro item hi path hpath
    rw [← Bool.not_eq_true]
    intro hforbidden
    unfold RulesKept at hkept
    cases hread : readRobots lib scope site.robots with
    | error exit =>
      rw [fetches_of_error hread] at hi
      cases hi
    | ok read =>
      obtain ⟨disallowed, sitemaps⟩ := read
      rw [← hrobots, hread] at hkept
      have hitem := hadmitted item hi
      have hpages : 1 ≤ run.pageLimit := by
        by_contra hlt
        rw [fetches_of_limit (not_le.mp hlt)] at hi
        cases hi
      have hdepth : 0 ≤ run.depthLimit := (Int.natCast_nonneg _).trans hitem.depth
      obtain ⟨path', hpath', hreach⟩ := hitem.found
      obtain rfl : path' = path := List.append_cancel_left (hpath'.symm.trans hpath)
      have hno := hkept hpages hdepth path' hreach (hpath ▸ hc.storable item hi)
        (hrobots ▸ hforbidden)
      have hallowed := hitem.allowed
      rw [hpath, allowed_path hplain hreach.isUrlPath, readSitemaps_rules hread, hno] at hallowed
      split at hallowed <;> cases hallowed
  · rw [hsitemaps, ← hmaps.count]
    exact hmaps.bounded
  · rw [hseen]
    exact ⟨hc.nodup, hc.length⟩

end

end MegaPanel.Crawl

import MegaPanel.Crawl.Breach

set_option autoImplicit false

/-! # When the requests of a crawl stay within its limits

`crawl_scoped_iff`: for a run and an answer to the request of `robots.txt`, the crawl stays within
its limits on every site if and only if the rules that were kept forbid whatever the groups of
`robots.txt` forbid, among the paths that the crawl can come to. Where they do not, a rule of a
group that was dropped is itself a path to which the site of `Breach.lean` leads the crawl. -/

namespace MegaPanel.Crawl

open MegaPanel.Lib MegaPanel.Lib.Url MegaPanel.Lib.Text MegaPanel.Ssrf

/-- A site that answers nothing but `robots.txt` and one sitemap. -/
def leadingSite (robots : Fetch (List Char)) (first : Url) (locs : List (List Char)) : Site where
  robots := robots
  sitemap u := if u = first then .response 200 (some locs) else .failed
  page _ := .failed
  runningLoads := none
  insertFails _ := false
  commitFails _ := false

section

variable {lib : Library} {run : Run} {scope : CrawlScope} {robots : Fetch (List Char)}
  {disallowed : List (List Char)} {sitemaps : List Url}

variable {rules : List (List Char)} {path : List Char}

/-- A rule that forbids a path is found in the rules. -/
theorem forbids_eq_true :
    forbids rules path = true ↔ ∃ rule ∈ rules, rule ≠ [] ∧ ∃ rest, rule ++ rest = path := by
  simp only [forbids, List.any_eq_true, Bool.and_eq_true, decide_eq_true_eq,
    List.isPrefixOf_iff_prefix, List.IsPrefix]

/-- What forbids the beginning of a path forbids the path. -/
theorem forbids_append {rest : List Char} (h : forbids rules path = true) :
    forbids rules (path ++ rest) = true := by
  obtain ⟨rule, hrule, hne, more, rfl⟩ := forbids_eq_true.mp h
  exact forbids_eq_true.mpr ⟨rule, hrule, hne, more ++ rest, (List.append_assoc ..).symm⟩

theorem allowed_of_not_forbids (hplain : scope.Plain)
    (hread : readRobots lib scope robots = .ok (disallowed, sitemaps)) (hpath : IsUrlPath path) :
    isAllowedByRobots lib (scope.origin ++ path) disallowed
      = some (!forbids disallowed path) := by
  rw [allowed_path hplain hpath, if_pos (netlocValid_of_passes hplain isUrlPath_robots
    (passes_of_readRobots hread))]

/-- An allowed page that is not too deep is queued. -/
theorem enqueue_new {item : DiscoveredURL}
    (hallowed : isAllowedByRobots lib item.url disallowed = some true)
    (hdepth : (item.depth : Int) ≤ run.depthLimit) :
    enqueue lib run disallowed ⟨[], []⟩ item = some ⟨[item], [item.url]⟩ := by
  unfold enqueue
  rw [if_pos ⟨List.not_mem_nil, by decide, hdepth⟩, hallowed]
  rfl

/-- Whatever the seed does, it stands behind the first page. -/
theorem startCrawl_of_exit_none (hplain : scope.Plain) (hroot : scope.Holds scope.rootUrl)
    (hread : readRobots lib scope robots = .ok (disallowed, sitemaps)) {s : Sitemaps}
    (hexit : s.exit = none) :
    ∃ more, (startCrawl lib run scope disallowed s).frontier.queue = s.frontier.queue ++ more ∧
      enqueue lib run disallowed s.frontier ⟨scope.rootUrl, none, 0, .seed⟩
        = some (startCrawl lib run scope disallowed s).frontier ∧
      (startCrawl lib run scope disallowed s).exit = none ∧
      (startCrawl lib run scope disallowed s).progress.fetched = 0 ∧
      (startCrawl lib run scope disallowed s).loads = 0 := by
  obtain ⟨path, heq, hpath⟩ := hroot
  have hsome : ∃ g, enqueue lib run disallowed s.frontier ⟨scope.rootUrl, none, 0, .seed⟩
      = some g := by
    unfold enqueue
    split
    · dsimp only
      rw [heq, allowed_of_not_forbids hplain hread hpath]
      exact ⟨_, rfl⟩
    · exact ⟨_, rfl⟩
  obtain ⟨g, hg⟩ := hsome
  obtain ⟨more, hqueue, _, _⟩ := (grown_enqueue (found_root ⟨path, heq, hpath⟩) hg).added
  have hstart : startCrawl lib run scope disallowed s = ⟨g, ⟨0, 0, 0, 0, run.pageLimit⟩,
      ⟨0, 0, 0, 0, run.pageLimit⟩, 0, [], [], none⟩ := by
    unfold startCrawl
    rw [hexit]
    simp only [Option.isSome_none, Bool.false_eq_true, if_false, hg]
  rw [hstart]
  exact ⟨more, hqueue, hg, rfl, rfl, rfl⟩

/-- The sitemaps that a crawl starts with, the first one apart. -/
theorem exists_first (sitemaps : List Url) (last : Url) :
    ∃ first rest, sitemaps ++ [last] = first :: rest := by
  cases sitemaps with
  | nil => exact ⟨last, [], rfl⟩
  | cons first rest => exact ⟨first, rest ++ [last], rfl⟩

theorem passes_sitemaps (hplain : scope.Plain)
    (hread : readRobots lib scope robots = .ok (disallowed, sitemaps)) :
    ∀ u ∈ sitemaps ++ [scope.origin ++ "/sitemap.xml".toList], passesGuard lib u = true := by
  have hrobots := passes_of_readRobots hread
  intro u hu
  rcases List.mem_append.mp hu with hu | hu
  · obtain ⟨path, rfl, hpath⟩ := (found_readRobots hplain hread u hu).holds
    exact passesGuard_path hplain isUrlPath_robots hpath hrobots
  · rw [List.mem_singleton.mp hu]
    exact passesGuard_path hplain isUrlPath_robots isUrlPath_sitemap hrobots

/-- Where no sitemap answers, the root is the first page. -/
theorem root_fetched (hplain : scope.Plain) (hroot : scope.Holds scope.rootUrl)
    (hread : readRobots lib scope robots = .ok (disallowed, sitemaps))
    (hlimit : 1 ≤ run.pageLimit) (hdepth : 0 ≤ run.depthLimit)
    (hstorable : storable scope.rootUrl = true)
    (hallowed : isAllowedByRobots lib scope.rootUrl disallowed = some true) :
    ∃ site, site.robots = robots ∧
      ∃ item ∈ (crawlPages lib run scope site).fetches, item.url = scope.rootUrl := by
  let site : Site := { leadingSite robots [] [] with sitemap := fun _ => .failed }
  have hread' : readRobots lib scope site.robots = .ok (disallowed, sitemaps) := hread
  have hquiet : Sitemaps.Quiet lib site ⟨[], []⟩
      ⟨sitemaps ++ [scope.origin ++ "/sitemap.xml".toList], [], 0, ⟨[], []⟩, none⟩ :=
    ⟨rfl, rfl, fun u hu => ⟨passes_sitemaps hplain hread u hu, fun _ => rfl⟩⟩
  obtain ⟨hfrontier, hexit⟩ := @Sitemaps.Quiet.left lib run scope site disallowed _ _ hquiet
  obtain ⟨_, _, henqueue, hexit', hfetched, hloads⟩ :=
    @startCrawl_of_exit_none lib run scope _ _ _ hplain hroot hread _ hexit
  have hnew := @enqueue_new lib run disallowed ⟨scope.rootUrl, none, 0, .seed⟩ hallowed hdepth
  rw [hfrontier, hnew] at henqueue
  refine ⟨site, rfl, ⟨scope.rootUrl, none, 0, .seed⟩, ?_, rfl⟩
  unfold crawlPages readSitemaps
  rw [hread']
  dsimp only
  refine @head_fetched lib run scope _ _ _ _ [] hexit' ?_ (by rw [hfetched]; exact_mod_cast hlimit)
    hstorable rfl rfl
  rw [← Option.some.inj henqueue]

/-- A path that a sitemap can list is the first page of a crawl. -/
theorem listed_fetched (hplain : scope.Plain) (hroot : scope.Holds scope.rootUrl)
    (hscope : normalizeRootUrl lib run.rootUrl = some scope)
    (hread : readRobots lib scope robots = .ok (disallowed, sitemaps)) (hlimit : 1 ≤ run.pageLimit)
    (hdepth : 0 ≤ run.depthLimit) (hpath : Listed path)
    (hstorable : storable (scope.origin ++ path) = true)
    (hallowed : forbids disallowed path = false) :
    ∃ site, site.robots = robots ∧
      ∃ item ∈ (crawlPages lib run scope site).fetches, item.url = scope.origin ++ path := by
  obtain ⟨netloc, hnetloc⟩ := exists_netloc hscope
  obtain ⟨first, rest, hfirst⟩ :=
    exists_first sitemaps (scope.origin ++ "/sitemap.xml".toList)
  have hpasses := passes_sitemaps hplain hread
  rw [hfirst] at hpasses
  let room := maxSitemaps - rest.length
  let site := leadingSite robots first ((listedPaths room path).map (locText netloc))
  let item : DiscoveredURL := ⟨scope.origin ++ path, none, 0, .sitemap⟩
  let decoys := (List.range room).map (fun i => scope.origin ++ decoyPath (path.length + i))
  have hread' : readRobots lib scope site.robots = .ok (disallowed, sitemaps) := hread
  have hurls : (listedPaths room path).map (scope.origin ++ ·)
      = decoys ++ [scope.origin ++ path] := by
    simp only [listedPaths, decoys, List.map_append, List.map_map, List.map_cons, List.map_nil,
      Function.comp_def]
  have hxml : ∀ u ∈ decoys, ".xml".toList.isSuffixOf u = true := by
    intro u hu
    obtain ⟨i, _, rfl⟩ := List.mem_map.mp hu
    exact xml_decoy ..
  have henqueue : enqueue lib run disallowed ⟨[], []⟩ item = some ⟨[item], [item.url]⟩ :=
    enqueue_new (by
      rw [allowed_of_not_forbids hplain hread hpath.isUrlPath, hallowed]
      rfl) hdepth
  -- the first sitemap fills the queue of sitemaps and then queues the page
  have hdiscover : discover lib run disallowed rest ⟨[], []⟩ (decoys ++ [scope.origin ++ path])
      = ((rest ++ decoys, ⟨[item], [item.url]⟩), false) := by
    have hlength : rest.length + decoys.length = max rest.length maxSitemaps := by
      simp only [decoys, room, List.length_map, List.length_range]
      omega
    have hfull : ¬ (".xml".toList.isSuffixOf (scope.origin ++ path) = true ∧
        (rest ++ decoys).length < maxSitemaps) := by
      rw [List.length_append, hlength]
      exact fun h => absurd h.2 (not_lt.mpr (le_max_right ..))
    rw [discover_decoys hxml hlength.le, discover, if_neg hfull, henqueue]
    rfl
  let begun : Sitemaps := ⟨sitemaps ++ [scope.origin ++ "/sitemap.xml".toList], [], 0,
    ⟨[], []⟩, none⟩
  let found : Sitemaps := ⟨rest ++ decoys, [first], 1, ⟨[item], [item.url]⟩, none⟩
  have hturn : (sitemapLoop lib run scope site disallowed).body begun = some found := by
    show Sitemaps.turn lib run scope site disallowed begun = some found
    have hfetch : fetchText lib first (site.sitemap first)
        = .response 200 (some ((listedPaths room path).map (locText netloc))) := by
      rw [fetchText_of_passes (hpasses first (List.mem_cons_self ..))]
      exact if_pos rfl
    have hsitemap : sitemapUrls lib scope (some ((listedPaths room path).map (locText netloc)))
        = some (decoys ++ [scope.origin ++ path]) :=
      (sitemapUrls_listed hnetloc hpath (Nat.sub_le ..)).trans (congrArg some hurls)
    unfold Sitemaps.turn
    simp only [begun, hfirst, Option.isSome_none, Bool.false_eq_true, if_false, List.not_mem_nil,
      hfetch, Sitemaps.receive, ne_eq, not_true_eq_false]
    rw [if_neg (by decide), hsitemap]
    dsimp only
    rw [hdiscover]
    rfl
  have hquiet : found.Quiet lib site ⟨[item], [item.url]⟩ := by
    refine ⟨rfl, rfl, fun u hu => ⟨?_, fun hu' => if_neg (fun heq => hu' ?_)⟩⟩
    · rcases List.mem_append.mp hu with hu | hu
      · exact hpasses u (List.mem_cons_of_mem _ hu)
      · obtain ⟨i, _, rfl⟩ := List.mem_map.mp hu
        exact passesGuard_path hplain isUrlPath_robots (isUrlPath_decoy _)
          (passes_of_readRobots hread)
    · rw [heq]
      exact List.mem_singleton_self _
  obtain ⟨hfrontier, hexit⟩ := @Sitemaps.Quiet.left lib run scope site disallowed _ _ hquiet
  rw [← Loop.run_of_some hturn] at hfrontier hexit
  obtain ⟨more, hqueue, _, hexit', hfetched, hloads⟩ :=
    @startCrawl_of_exit_none lib run scope _ _ _ hplain hroot hread _ hexit
  rw [hfrontier] at hqueue
  refine ⟨site, rfl, item, ?_, rfl⟩
  unfold crawlPages readSitemaps
  rw [hread']
  dsimp only
  exact head_fetched hexit' hqueue (by rw [hfetched]; exact_mod_cast hlimit) hstorable rfl rfl

/-- **The condition is needed.** -/
theorem rulesKept_of_scoped (hscope : normalizeRootUrl lib run.rootUrl = some scope)
    (h : ∀ site outcome, site.robots = robots → runCompetitorCrawl lib run site = some outcome →
      Scoped lib run scope robots outcome) : RulesKept lib run scope robots := by
  obtain ⟨hplain, hroot⟩ := normalizeRootUrl_scope hscope
  unfold RulesKept
  split
  · trivial
  next disallowed sitemaps hread =>
    intro hlimit hdepth path hreach hstorable hforbidden
    by_contra hkept
    rw [Bool.not_eq_true] at hkept
    -- a site that leads the crawl to a forbidden path is no site of a scoped crawl
    have hno : ∀ path', forbids (robotsRules lib robots) path' = true →
        ¬ ∃ site, site.robots = robots ∧ ∃ item ∈ (crawlPages lib run scope site).fetches,
          item.url = scope.origin ++ path' := by
      rintro path' hforbidden' ⟨site, hrobots, item, hitem, hurl⟩
      have hscoped := h site _ hrobots (by
        unfold runCompetitorCrawl
        rw [hscope, Option.map_some])
      have hallowed := hscoped.allowed item (by rwa [(finish_requests _ _).1]) path' hurl
      rw [hforbidden'] at hallowed
      cases hallowed
    rcases hreach.collapsed with hcollapsed | hpath
    · obtain ⟨rule, hrule, hne, rest, rfl⟩ := forbids_eq_true.mp hforbidden
      obtain ⟨_, hlast⟩ := robotsRules_rule hrule
      have hrulePath : IsUrlPath rule := by
        refine ⟨?_, fun c hc => hreach.isUrlPath.2 c (List.mem_append_left _ hc)⟩
        have hhead := hreach.isUrlPath.1
        cases rule with
        | nil => exact absurd rfl hne
        | cons c cs => exact hhead
      have hruleCollapsed : collapseSlashes rule = rule :=
        (collapseSlashes_eq_self_iff rule).mpr
          (((collapseSlashes_eq_self_iff _).mp hcollapsed).left_of_append)
      have hruleStorable : storable (scope.origin ++ rule) = true := by
        rw [storable, Bool.and_eq_true, decide_eq_true_eq, decide_eq_true_eq] at hstorable ⊢
        rw [← List.append_assoc] at hstorable
        have hlonger := @List.length_append _ (scope.origin ++ rule) rest
        refine ⟨by omega, fun hc => hstorable.2 (List.mem_append_left _ hc)⟩
      have hruleKept : forbids disallowed rule = false := by
        rw [← Bool.not_eq_true] at hkept ⊢
        exact fun hforbids => hkept (forbids_append hforbids)
      have hruleForbidden : forbids (robotsRules lib robots) rule = true :=
        forbids_eq_true.mpr ⟨rule, hrule, hne, [], List.append_nil _⟩
      exact hno rule hruleForbidden (listed_fetched hplain hroot hscope hread hlimit hdepth
        ⟨hrulePath, hruleCollapsed, fun _ => hlast⟩ hruleStorable hruleKept)
    · refine hno path hforbidden (hpath ▸ root_fetched hplain hroot hread hlimit hdepth
        (hpath ▸ hstorable) ?_)
      rw [← hpath, allowed_of_not_forbids hplain hread hreach.isUrlPath, hkept]
      rfl

/-- **When a crawl stays within its limits.** On every site with the given answer to the request
of `robots.txt`, if and only if the rules that are kept forbid all that the groups forbid. -/
theorem crawl_scoped_iff (hscope : normalizeRootUrl lib run.rootUrl = some scope) :
    (∀ site outcome, site.robots = robots → runCompetitorCrawl lib run site = some outcome →
      Scoped lib run scope robots outcome) ↔ RulesKept lib run scope robots :=
  ⟨rulesKept_of_scoped hscope, fun hkept _ _ hrobots h =>
    scoped_of_rulesKept hscope hkept hrobots h⟩

end

/-! ## Two robots.txt of one site -/

theorem toLower_of_delimiter {c : Char} (h : isDelimiter c.toLower = true) : c.toLower = c := by
  by_cases hc : c.toNat < 128
  · have hall : ∀ n < 128, isDelimiter (Char.ofNat n).toLower = true →
        (Char.ofNat n).toLower = Char.ofNat n := by decide
    rw [← Char.ofNat_toNat c] at h ⊢
    exact hall _ hc h
  · unfold Char.toLower
    split
    · next hupper =>
      have hle : c.toNat ≤ 90 := UInt32.le_iff_toNat_le.mp hupper.2
      omega
    · rfl

/-- Hosts in ASCII. -/
def asciiTables : Ssrf.Library := ⟨fun _ => true, fun host => host.map Char.toLower⟩

/-- `urljoin` for an absolute URL and for an absolute path. -/
def joinAbsolute (base : Url) (href : List Char) : Option Url :=
  if "https://".toList.isPrefixOf href then some href
  else (urlsplit asciiTables.netlocValid base).map
    (fun parsed => urlunsplit parsed.netloc href)

def asciiLibrary : Library where
  toLibrary := asciiTables
  urljoin := joinAbsolute
  lower_mem text c hc hd := by
    obtain ⟨c', hc', rfl⟩ := List.mem_map.mp hc
    rwa [toLower_of_delimiter hd]

def rivalRun : Run := ⟨"https://rival.test/".toList, some 20, some 4⟩

def rivalScope : CrawlScope :=
  ⟨"https://rival.test/".toList, "https://rival.test".toList, "rival.test".toList⟩

def singleAgent : List Char := "User-agent: *\nDisallow: /private\n".toList

theorem crawl_scoped_single :
    normalizeRootUrl asciiLibrary rivalRun.rootUrl = some rivalScope ∧
      ∀ site outcome, site.robots = .response 200 singleAgent →
        runCompetitorCrawl asciiLibrary rivalRun site = some outcome →
          Scoped asciiLibrary rivalRun rivalScope (.response 200 singleAgent) outcome := by
  have hread : readRobots asciiLibrary rivalScope (.response 200 singleAgent)
      = .ok (["/private".toList], []) := by rfl
  have hrules : robotsRules asciiLibrary (.response 200 singleAgent) = ["/private".toList] := by
    rfl
  have hscope : normalizeRootUrl asciiLibrary rivalRun.rootUrl = some rivalScope := by
    decide +kernel
  refine ⟨hscope, (crawl_scoped_iff hscope).mpr ?_⟩
  unfold RulesKept
  rw [hread, hrules]
  exact fun _ _ _ _ _ hforbidden => hforbidden

def sharedGroup : List Char := "User-agent: *\nUser-agent: otherbot\nDisallow: /private\n".toList

/-- A home page with one link. -/
def rivalSite : Site where
  robots := .response 200 sharedGroup
  sitemap _ := .response 404 none
  page u :=
    if u = rivalScope.rootUrl then .response 200 ⟨["/private/prices".toList], none, false, true⟩
    else .response 200 ⟨[], none, false, true⟩
  runningLoads := none
  insertFails _ := false
  commitFails _ := false

theorem readSitemaps_rival (run : Run) :
    (readSitemaps asciiLibrary run rivalScope rivalSite)
      = ([], ⟨[], ["https://rival.test/sitemap.xml".toList], 1, ⟨[], []⟩, none⟩) := by
  have hread : readRobots asciiLibrary rivalScope rivalSite.robots = .ok ([], []) := by rfl
  unfold readSitemaps
  rw [hread]
  dsimp only
  rw [Loop.run_eq_runFor (n := 1) (by rfl)]
  rfl

/-- `User-agent: otherbot` takes the rule of its group away from `*`. -/
theorem crawl_requests_forbidden :
    ∃ outcome, runCompetitorCrawl asciiLibrary rivalRun rivalSite = some outcome ∧
      ¬ Scoped asciiLibrary rivalRun rivalScope rivalSite.robots outcome := by
  have hscope : normalizeRootUrl asciiLibrary rivalRun.rootUrl = some rivalScope := by
    decide +kernel
  have hcrawl : (crawlPages asciiLibrary rivalRun rivalScope rivalSite).fetches.any
      (fun item => decide (item.url = rivalScope.origin ++ "/private/prices".toList)) = true := by
    unfold crawlPages
    rw [readSitemaps_rival, Loop.run_eq_runFor (n := 2) (by rfl)]
    rfl
  refine ⟨_, by rw [runCompetitorCrawl, hscope, Option.map_some], fun hscoped => ?_⟩
  obtain ⟨item, hitem, hurl⟩ := List.any_eq_true.mp hcrawl
  have hallowed := hscoped.allowed item (by rwa [(finish_requests _ _).1]) _
    (of_decide_eq_true hurl)
  revert hallowed
  rw [Bool.eq_false_iff]
  exact fun hno => hno (by decide +kernel)

end MegaPanel.Crawl

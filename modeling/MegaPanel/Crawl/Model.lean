import MegaPanel.Crawl.Urls
import MegaPanel.Lib.Loop

set_option autoImplicit false

/-! # A crawl of a competitor's site

`run_competitor_crawl` (`services/competitor_crawl.py`) on a run that was queued. The site is an
environment: what it answers to every request, when another session cancels the run, and which
statements the database refuses for reasons of its own.

The two loops are `Loop`s. In the first one a sitemap may be pushed on the queue that is being
emptied, in the second one a link on the queue of pages; both end, as at most `MAX_SITEMAPS`
sitemaps are fetched and at most `MAX_SITEMAP_URLS` pages are queued.

`run.progress` is a plain JSON column. The counts are written into the dictionary of the loaded
instance (`CrawlState.progress`), which no `UPDATE` carries to the row (`CrawlState.stored`), and
every turn loads the row again with `populate_existing`.
-/

namespace MegaPanel.Crawl

open MegaPanel.Lib MegaPanel.Lib.Url MegaPanel.Lib.Text MegaPanel.Ssrf

/-! ## The run and the site -/

/-- A queued `CompetitorCrawlRun`: its root and its configuration. -/
structure Run where
  rootUrl : Url
  maxPages : Option Int
  maxDepth : Option Int

/-- `max_pages`, with `DEFAULT_MAX_PAGES` and `MAX_CRAWL_PAGES`. -/
def Run.pageLimit (run : Run) : Int := min (run.maxPages.getD 100) 500

/-- `max_depth`, with `DEFAULT_MAX_DEPTH` and `MAX_CRAWL_DEPTH`. -/
def Run.depthLimit (run : Run) : Int := min (run.maxDepth.getD 8) 12

/-- What `fetch_text` comes to: `SSRFBlockedError`, another error, or a response. -/
inductive Fetch (β : Type)
  | blocked
  | failed
  | response (status : Nat) (body : β)

structure Site where
  /-- The text of `robots.txt`, decoded. -/
  robots : Fetch (List Char)
  /-- The texts of the `loc` nodes of a sitemap, `none` where it is no XML. -/
  sitemap : Url → Fetch (Option (List (List Char)))
  page : Url → Fetch Html
  /-- How many loads of the row find the run running, if it is cancelled at all. -/
  runningLoads : Option Nat
  /-- The turns in which the insertion of the page fails. -/
  insertFails : Nat → Bool
  /-- The turns in which the flush of the commit fails. -/
  commitFails : Nat → Bool

/-- `run.status == "running"` at a load of the row. -/
def Site.running (site : Site) (load : Nat) : Bool := site.runningLoads.all (fun n => load < n)

/-- `crawler_guard` -/
def crawlerGuard : SSRFGuard := ⟨true, ["https".toList], some [443]⟩

/-- The guard lets a request to the URL leave, as far as the URL decides it. -/
def passesGuard (lib : Library) (url : Url) : Bool :=
  (urlsplit lib.netlocValid url).any
    (fun parsed => (crawlerGuard.checkTarget lib.toLibrary parsed).isOk)

/-- `fetch_text`: the guard looks at the URL before the site is asked. -/
def fetchText {β : Type} (lib : Library) (url : Url) (answer : Fetch β) : Fetch β :=
  match urlsplit lib.netlocValid url with
  | none => .failed
  | some parsed =>
    match crawlerGuard.checkTarget lib.toLibrary parsed with
    | .error _ => .blocked
    | .ok _ => answer

theorem fetchText_of_passes {β : Type} {lib : Library} {url : Url}
    (h : passesGuard lib url = true) (answer : Fetch β) : fetchText lib url answer = answer := by
  unfold passesGuard at h
  unfold fetchText
  cases hsplit : urlsplit lib.netlocValid url with
  | none =>
    rw [hsplit] at h
    cases h
  | some parsed =>
    rw [hsplit, Option.any_some] at h
    dsimp only
    cases hcheck : crawlerGuard.checkTarget lib.toLibrary parsed with
    | error e =>
      rw [hcheck] at h
      cases h
    | ok target => rfl

/-! ## The queue of pages -/

inductive Source
  | sitemap
  | seed
  | link
  deriving DecidableEq

structure DiscoveredURL where
  url : Url
  parentUrl : Option Url
  depth : Nat
  source : Source
  deriving DecidableEq

/-- `queue` and `seen` -/
structure Frontier where
  queue : List DiscoveredURL
  seen : List Url

/-- `enqueue`; `none` is `ValueError`. -/
def enqueue (lib : Library) (run : Run) (disallowed : List (List Char)) (f : Frontier)
    (item : DiscoveredURL) : Option Frontier :=
  if item.url ∉ f.seen ∧ f.seen.length < maxSitemapUrls ∧ (item.depth : Int) ≤ run.depthLimit then
    (isAllowedByRobots lib item.url disallowed).map (fun allowed =>
      if allowed then ⟨f.queue ++ [item], f.seen ++ [item.url]⟩ else f)
  else some f

/-- The items of a list, one after the other, and whether one of them raised. -/
def enqueueAll (lib : Library) (run : Run) (disallowed : List (List Char)) :
    Frontier → List DiscoveredURL → Frontier × Bool
  | f, [] => (f, false)
  | f, item :: items =>
    match enqueue lib run disallowed f item with
    | none => (f, true)
    | some g => enqueueAll lib run disallowed g items

/-! ## robots.txt and the sitemaps -/

/-- How a loop is left before its end. -/
inductive Exit
  /-- `break`, as the run is not running any more. -/
  | cancelled
  /-- `SSRFBlockedError` -/
  | blocked
  /-- Another exception -/
  | failed
  /-- An exception of the session, which its handler raises again. -/
  | raised
  deriving DecidableEq

/-- The rules and the sitemaps of `robots.txt`, or the exception. -/
def readRobots (lib : Library) (scope : CrawlScope) (answer : Fetch (List Char)) :
    Except Exit (List (List Char) × List Url) :=
  match fetchText lib (scope.origin ++ "/robots.txt".toList) answer with
  | .blocked => .error .blocked
  | .failed => .error .failed
  | .response status text =>
    if status = 200 then
      match robotsDirectives lib scope text with
      | none => .error .failed
      | some directives => .ok directives
    else if status = 404 ∨ status = 410 then .ok ([], [])
    else .error .failed

/-- The variables of the first loop. -/
structure Sitemaps where
  /-- `sitemap_queue` -/
  pending : List Url
  /-- `seen_sitemaps`, in the order of the requests. -/
  seen : List Url
  /-- `sitemap_count` -/
  count : Nat
  frontier : Frontier
  exit : Option Exit

/-- The URLs of one sitemap, and whether queueing one of them raised. -/
def discover (lib : Library) (run : Run) (disallowed : List (List Char)) :
    List Url → Frontier → List Url → (List Url × Frontier) × Bool
  | pending, f, [] => ((pending, f), false)
  | pending, f, url :: urls =>
    if ".xml".toList.isSuffixOf url = true ∧ pending.length < maxSitemaps then
      discover lib run disallowed (pending ++ [url]) f urls
    else
      match enqueue lib run disallowed f ⟨url, none, 0, .sitemap⟩ with
      | none => ((pending, f), true)
      | some g => discover lib run disallowed pending g urls

/-- What follows the request of a sitemap. -/
def Sitemaps.receive (lib : Library) (run : Run) (scope : CrawlScope)
    (disallowed : List (List Char)) (s : Sitemaps) :
    Fetch (Option (List (List Char))) → Sitemaps
  | .blocked => { s with exit := some .blocked }
  | .failed => s
  | .response status locs =>
    if status ≠ 200 then s
    else
      match sitemapUrls lib scope locs with
      | none => { s with exit := some .failed }
      | some urls =>
        let found := discover lib run disallowed s.pending s.frontier urls
        { s with
          pending := found.1.1
          frontier := found.1.2
          exit := if found.2 then some .failed else none }

/-- One turn of the first loop. -/
def Sitemaps.turn (lib : Library) (run : Run) (scope : CrawlScope) (site : Site)
    (disallowed : List (List Char)) (s : Sitemaps) : Option Sitemaps :=
  if s.exit.isSome then none
  else
    match s.pending with
    | [] => none
    | sitemap :: rest =>
      if maxSitemaps ≤ s.count then none
      else if sitemap ∈ s.seen then some { s with pending := rest }
      else
        some (Sitemaps.receive lib run scope disallowed
          { s with pending := rest, seen := s.seen ++ [sitemap], count := s.count + 1 }
          (fetchText lib sitemap (site.sitemap sitemap)))

theorem length_discover (lib : Library) (run : Run) (disallowed : List (List Char)) :
    ∀ (urls pending : List Url) (f : Frontier),
      (discover lib run disallowed pending f urls).1.1.length ≤ max pending.length maxSitemaps
  | [], pending, f => le_max_left ..
  | url :: urls, pending, f => by
    unfold discover
    split
    · next h =>
      refine (length_discover lib run disallowed urls _ f).trans ?_
      rw [List.length_append, List.length_singleton]
      omega
    · split
      · exact le_max_left ..
      · exact length_discover lib run disallowed urls pending _

theorem Sitemaps.receive_count (lib : Library) (run : Run) (scope : CrawlScope)
    (disallowed : List (List Char)) (s : Sitemaps) (answer : Fetch (Option (List (List Char)))) :
    (s.receive lib run scope disallowed answer).count = s.count ∧
      (s.receive lib run scope disallowed answer).seen = s.seen := by
  unfold Sitemaps.receive
  split
  · exact ⟨rfl, rfl⟩
  · exact ⟨rfl, rfl⟩
  split
  · exact ⟨rfl, rfl⟩
  · split <;> exact ⟨rfl, rfl⟩

theorem Sitemaps.length_receive (lib : Library) (run : Run) (scope : CrawlScope)
    (disallowed : List (List Char)) (s : Sitemaps) (answer : Fetch (Option (List (List Char)))) :
    (s.receive lib run scope disallowed answer).pending.length
      ≤ max s.pending.length maxSitemaps := by
  unfold Sitemaps.receive
  split
  · exact le_max_left ..
  · exact le_max_left ..
  split
  · exact le_max_left ..
  split
  · exact le_max_left ..
  · exact length_discover ..

/-- The first loop. A request costs one of `MAX_SITEMAPS`, and fills the queue again at most up to
as many sitemaps. -/
def sitemapLoop (lib : Library) (run : Run) (scope : CrawlScope) (site : Site)
    (disallowed : List (List Char)) : Loop Sitemaps where
  body := Sitemaps.turn lib run scope site disallowed
  variant s := (maxSitemaps - s.count) * (maxSitemaps + 1) + s.pending.length
  decreases s t h := by
    unfold Sitemaps.turn at h
    split at h
    · cases h
    split at h
    · cases h
    next sitemap rest hpending =>
      rw [hpending, List.length_cons]
      split at h
      · cases h
      next hcount =>
        split at h
        · cases h
          exact Nat.add_lt_add_left (Nat.lt_succ_self _) _
        cases h
        rw [(Sitemaps.receive_count ..).1]
        have hlength := Sitemaps.length_receive lib run scope disallowed
          { s with pending := rest, seen := s.seen ++ [sitemap], count := s.count + 1 }
          (fetchText lib sitemap (site.sitemap sitemap))
        have hsucc : maxSitemaps - s.count = maxSitemaps - (s.count + 1) + 1 := by omega
        rw [hsucc, Nat.succ_mul]
        dsimp only at hlength ⊢
        omega

/-- The first part of a crawl: the rules that are kept, and the first loop. -/
def readSitemaps (lib : Library) (run : Run) (scope : CrawlScope) (site : Site) :
    List (List Char) × Sitemaps :=
  match readRobots lib scope site.robots with
  | .error exit => ([], ⟨[], [], 0, ⟨[], []⟩, some exit⟩)
  | .ok (disallowed, sitemaps) =>
    (disallowed, (sitemapLoop lib run scope site disallowed).run
      ⟨sitemaps ++ [scope.origin ++ "/sitemap.xml".toList], [], 0, ⟨[], []⟩, none⟩)

/-! ## The pages -/

/-- `run.progress` -/
structure Progress where
  discovered : Nat
  fetched : Nat
  skipped : Nat
  failed : Nat
  maxPages : Int
  deriving DecidableEq

inductive PageStatus
  | queued
  | fetched
  | skipped
  | failed
  deriving DecidableEq

/-- `CompetitorCrawlPage`; of the signals it is kept whether they are JSON that can be stored. -/
structure Page where
  item : DiscoveredURL
  status : PageStatus
  httpStatus : Option Nat
  canonicalUrl : Option Url
  errorCode : Option String
  signalsStorable : Bool
  deriving DecidableEq

/-- A `String(2048)` column takes the text. -/
def storable (text : List Char) : Bool := text.length ≤ 2048 && decide (Char.ofNat 0 ∉ text)

/-- The new values of a page can be written. -/
def Page.storable (page : Page) : Bool :=
  page.canonicalUrl.all Crawl.storable && page.signalsStorable

/-- The page as it is inserted. -/
def DiscoveredURL.newPage (item : DiscoveredURL) : Page :=
  ⟨item, .queued, none, none, none, true⟩

/-- The links of a page as items. -/
def DiscoveredURL.children (item : DiscoveredURL) (links : List Url) : List DiscoveredURL :=
  links.map (fun link => ⟨link, some item.url, item.depth + 1, .link⟩)

/-- What one turn changes: the page, the dictionary of the instance and the queue. -/
structure Visit where
  page : Page
  progress : Progress
  frontier : Frontier

/-- The `try` of a turn. -/
def visit (lib : Library) (run : Run) (scope : CrawlScope) (disallowed : List (List Char))
    (current : DiscoveredURL) (progress : Progress) (frontier : Frontier)
    (answer : Fetch Html) : Visit :=
  let page := current.newPage
  match answer with
  | .blocked =>
    ⟨{ page with status := .skipped, errorCode := some "ssrf_blocked" },
      { progress with skipped := progress.skipped + 1 }, frontier⟩
  | .failed =>
    ⟨{ page with status := .failed, errorCode := some "fetch_failed" },
      { progress with failed := progress.failed + 1 }, frontier⟩
  | .response status html =>
    let page := { page with httpStatus := some status }
    if 400 ≤ status then
      ⟨{ page with status := .skipped, errorCode := some ("http_" ++ toString status) },
        { progress with skipped := progress.skipped + 1 }, frontier⟩
    else
      match extractPageSignals lib scope current.url html with
      | none =>
        ⟨{ page with status := .failed, errorCode := some "fetch_failed" },
          { progress with failed := progress.failed + 1 }, frontier⟩
      | some (canonical, links) =>
        let page :=
          { page with
            canonicalUrl := some (canonical.getD current.url)
            signalsStorable := html.signalsStorable
            status := .fetched }
        let progress := { progress with fetched := progress.fetched + 1 }
        match enqueueAll lib run disallowed frontier (current.children links) with
        | (frontier, false) => ⟨page, progress, frontier⟩
        | (frontier, true) =>
          ⟨{ page with status := .failed, errorCode := some "fetch_failed" },
            { progress with failed := progress.failed + 1 }, frontier⟩

/-- The variables of the second loop, and what it leaves in the database. -/
structure CrawlState where
  frontier : Frontier
  /-- `run.progress` of the instance. -/
  progress : Progress
  /-- The column of the row. -/
  stored : Progress
  /-- How often the row was loaded. -/
  loads : Nat
  /-- The pages that were requested. -/
  fetches : List DiscoveredURL
  /-- The pages that were committed. -/
  pages : List Page
  exit : Option Exit

/-- A turn behind the load of the row: insertion, request and commit. -/
def CrawlState.turnPage (lib : Library) (run : Run) (scope : CrawlScope) (site : Site)
    (disallowed : List (List Char)) (c : CrawlState) (current : DiscoveredURL) : CrawlState :=
  if storable current.url = false ∨ site.insertFails c.loads = true then
    { c with exit := some .raised }
  else
    let visited := visit lib run scope disallowed current c.progress c.frontier
      (fetchText lib current.url (site.page current.url))
    let c' :=
      { c with
        frontier := visited.frontier
        progress := { visited.progress with discovered := visited.frontier.seen.length }
        loads := c.loads + 1
        fetches := c.fetches ++ [current] }
    if visited.page.storable = false ∨ site.commitFails c.loads = true then
      { c' with exit := some .raised }
    else { c' with pages := c.pages ++ [visited.page] }

/-- One turn of the second loop. -/
def CrawlState.turn (lib : Library) (run : Run) (scope : CrawlScope) (site : Site)
    (disallowed : List (List Char)) (c : CrawlState) : Option CrawlState :=
  if c.exit.isSome then none
  else
    match c.frontier.queue with
    | [] => none
    | current :: rest =>
      if run.pageLimit ≤ c.progress.fetched then none
      else
        -- `get(..., populate_existing=True)`: the counts of the instance are those of the row
        let loaded := { c with frontier := ⟨rest, c.frontier.seen⟩, progress := c.stored }
        if site.running c.loads then
          some (CrawlState.turnPage lib run scope site disallowed loaded current)
        else some { loaded with loads := c.loads + 1, exit := some .cancelled }

/-- What remains to be done in the second loop. -/
def Frontier.remaining (f : Frontier) : Nat :=
  2 * (maxSitemapUrls - f.seen.length) + f.queue.length

theorem remaining_enqueue {lib : Library} {run : Run} {disallowed : List (List Char)}
    {f g : Frontier} {item : DiscoveredURL} (h : enqueue lib run disallowed f item = some g) :
    g.remaining ≤ f.remaining := by
  unfold enqueue at h
  split at h
  · next hnew =>
    obtain ⟨allowed, _, rfl⟩ := Option.map_eq_some_iff.mp h
    cases allowed
    · exact le_rfl
    · simp only [Frontier.remaining, if_true, List.length_append, List.length_singleton]
      omega
  · cases h
    exact le_rfl

theorem remaining_enqueueAll (lib : Library) (run : Run) (disallowed : List (List Char)) :
    ∀ (items : List DiscoveredURL) (f : Frontier),
      (enqueueAll lib run disallowed f items).1.remaining ≤ f.remaining
  | [], f => le_rfl
  | item :: items, f => by
    unfold enqueueAll
    split
    · exact le_rfl
    · next g hg =>
      exact (remaining_enqueueAll lib run disallowed items g).trans (remaining_enqueue hg)

/-- What a turn does to the queue, it does through the links of the page. -/
theorem visit_frontier (lib : Library) (run : Run) (scope : CrawlScope)
    (disallowed : List (List Char)) (current : DiscoveredURL) (progress : Progress)
    (f : Frontier) (answer : Fetch Html) :
    (visit lib run scope disallowed current progress f answer).frontier = f ∨
      ∃ html canonical links, extractPageSignals lib scope current.url html
          = some (canonical, links) ∧
        (visit lib run scope disallowed current progress f answer).frontier
          = (enqueueAll lib run disallowed f (current.children links)).1 := by
  unfold visit
  dsimp only
  split
  · exact .inl rfl
  · exact .inl rfl
  next status html =>
    split
    · exact .inl rfl
    split
    · exact .inl rfl
    next canonical links hextract =>
      refine .inr ⟨html, canonical, links, hextract, ?_⟩
      split
      · next hall => rw [hall]
      · next hall => rw [hall]

theorem remaining_turnPage (lib : Library) (run : Run) (scope : CrawlScope) (site : Site)
    (disallowed : List (List Char)) (c : CrawlState) (current : DiscoveredURL) :
    (c.turnPage lib run scope site disallowed current).frontier.remaining
      ≤ c.frontier.remaining := by
  have hvisit := visit_frontier lib run scope disallowed current c.progress c.frontier
    (fetchText lib current.url (site.page current.url))
  have hle : (visit lib run scope disallowed current c.progress c.frontier
      (fetchText lib current.url (site.page current.url))).frontier.remaining
        ≤ c.frontier.remaining := by
    rcases hvisit with heq | ⟨html, canonical, links, _, heq⟩
    · rw [heq]
    · rw [heq]
      exact remaining_enqueueAll ..
  unfold CrawlState.turnPage
  split
  · exact le_rfl
  · dsimp only
    split <;> exact hle

/-- The second loop. -/
def pageLoop (lib : Library) (run : Run) (scope : CrawlScope) (site : Site)
    (disallowed : List (List Char)) : Loop CrawlState where
  body := CrawlState.turn lib run scope site disallowed
  variant c := c.frontier.remaining
  decreases c d h := by
    unfold CrawlState.turn at h
    split at h
    · cases h
    split at h
    · cases h
    next current rest hqueue =>
      have hpop : (Frontier.remaining ⟨rest, c.frontier.seen⟩) < c.frontier.remaining := by
        simp only [Frontier.remaining, hqueue, List.length_cons]
        omega
      split at h
      · cases h
      dsimp only at h
      split at h
      · cases h
        exact (remaining_turnPage ..).trans_lt hpop
      · cases h
        exact hpop

/-! ## The end of a run -/

inductive RunStatus
  | running
  | done
  | partialResult
  | blocked
  | failed
  /-- What another session wrote. -/
  | cancelled
  deriving DecidableEq

/-- `run.coverage` -/
structure Coverage where
  origin : Url
  robotsRespected : Bool
  sitemapsChecked : Nat
  pageLimitReached : Bool
  /-- `"bounded_complete"` -/
  complete : Bool
  deriving DecidableEq

/-- What a run leaves behind: the row, the pages, and what was requested on the way. -/
structure Outcome where
  status : RunStatus
  progress : Progress
  coverage : Option Coverage
  errorCode : Option String
  pages : List Page
  fetches : List DiscoveredURL
  sitemaps : List Url
  seen : List Url

/-- Behind the loops, with the row loaded once more. -/
def finish (scope : CrawlScope) (site : Site) (sitemaps : Sitemaps) (c : CrawlState) : Outcome :=
  let running := site.running c.loads
  let untouched : Outcome :=
    { status := if running then .running else .cancelled
      progress := c.stored
      coverage := none
      errorCode := none
      pages := c.pages
      fetches := c.fetches
      sitemaps := sitemaps.seen
      seen := c.frontier.seen }
  if running = false then untouched
  else
    match c.exit with
    | some .raised => untouched
    | some .blocked => { untouched with status := .blocked, errorCode := some "ssrf_blocked" }
    | some .failed => { untouched with status := .failed, errorCode := some "crawler_failed" }
    | some .cancelled | none =>
      { untouched with
        status := if c.frontier.queue = [] then .done else .partialResult
        coverage := some
          { origin := scope.origin
            robotsRespected := true
            sitemapsChecked := sitemaps.count
            pageLimitReached := decide (c.frontier.queue ≠ [])
            complete := decide (c.frontier.queue = []) } }

/-- The second loop before its first turn. -/
def startCrawl (lib : Library) (run : Run) (scope : CrawlScope) (disallowed : List (List Char))
    (s : Sitemaps) : CrawlState :=
  let progress : Progress := ⟨0, 0, 0, 0, run.pageLimit⟩
  let crawl : CrawlState := ⟨s.frontier, progress, progress, 0, [], [], s.exit⟩
  if s.exit.isSome then crawl
  else
    match enqueue lib run disallowed s.frontier ⟨scope.rootUrl, none, 0, .seed⟩ with
    | none => { crawl with exit := some .failed }
    | some frontier => { crawl with frontier := frontier }

/-- The second loop as it is left. -/
def crawlPages (lib : Library) (run : Run) (scope : CrawlScope) (site : Site) : CrawlState :=
  let read := readSitemaps lib run scope site
  (pageLoop lib run scope site read.1).run (startCrawl lib run scope read.1 read.2)

/-- `run_competitor_crawl` on a queued run; `none` is the `ValueError` of a root that is not
normal, before anything is written. -/
def runCompetitorCrawl (lib : Library) (run : Run) (site : Site) : Option Outcome :=
  (normalizeRootUrl lib run.rootUrl).map (fun scope =>
    finish scope site (readSitemaps lib run scope site).2 (crawlPages lib run scope site))

end MegaPanel.Crawl

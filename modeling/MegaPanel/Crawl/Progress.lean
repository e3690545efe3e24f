import MegaPanel.Crawl.Requests

set_option autoImplicit false

/-! # The budget of a crawl and its counts

`run.progress` is meant to count the pages of a crawl, and `max_pages` to bound those that are
fetched. The counts are written into the dictionary of the loaded instance, where the session does
not see them, and the next load of the row overwrites them: the row keeps the zeros of the start
(`stored_run`), and the limit is compared with a count that is never more than one.

So the counts are right, and the limit holds, in the crawls that store no page at all
(`crawl_counted_iff`). -/

namespace MegaPanel.Crawl

open MegaPanel.Lib MegaPanel.Lib.Url MegaPanel.Ssrf

/-! ## The purpose -/

/-- How many pages have a status. -/
def countStatus (status : PageStatus) (pages : List Page) : Nat :=
  pages.countP (fun page => page.status = status)

/-- What the row says about the pages. -/
structure Counted (run : Run) (o : Outcome) : Prop where
  budget : (countStatus .fetched o.pages : Int) ≤ run.pageLimit
  fetched : o.progress.fetched = countStatus .fetched o.pages
  skipped : o.progress.skipped = countStatus .skipped o.pages
  failed : o.progress.failed = countStatus .failed o.pages
  limit : ∀ coverage, o.coverage = some coverage → coverage.pageLimitReached = true →
    (countStatus .fetched o.pages : Int) = run.pageLimit

/-- `robots.txt` and the sitemaps leave a first page in the queue, `max_pages` allows one, the run
is not cancelled before it is loaded, and the database takes the page. -/
def StoresPage (lib : Library) (run : Run) (scope : CrawlScope) (site : Site) : Prop :=
  let read := readSitemaps lib run scope site
  let c := startCrawl lib run scope read.1 read.2
  c.exit = none ∧ 0 < run.pageLimit ∧ site.running 0 = true ∧
    ∃ current rest, c.frontier.queue = current :: rest ∧
      storable current.url = true ∧ site.insertFails 0 = false ∧
      (visit lib run scope read.1 current c.stored ⟨rest, c.frontier.seen⟩
        (fetchText lib current.url (site.page current.url))).page.storable = true ∧
      site.commitFails 0 = false

section

variable {lib : Library} {run : Run} {scope : CrawlScope} {site : Site}
  {disallowed : List (List Char)}

/-! ## The first loop -/

variable {s : Sitemaps}

/-- The first loop is left by its end or by an exception. -/
theorem exit_receive (hs : s.exit ≠ some .cancelled) (answer : Fetch (Option (List (List Char)))) :
    (s.receive lib run scope disallowed answer).exit ≠ some .cancelled := by
  unfold Sitemaps.receive
  split
  · nofun
  · exact hs
  · split
    · exact hs
    split
    · nofun
    · dsimp only
      split <;> nofun

theorem exit_readRobots {answer : Fetch (List Char)} {exit : Exit}
    (h : readRobots lib scope answer = .error exit) : exit ≠ .cancelled := by
  unfold readRobots at h
  rintro rfl
  split at h
  · cases h
  · cases h
  split at h
  · split at h <;> cases h
  · split at h <;> cases h

theorem exit_readSitemaps : (readSitemaps lib run scope site).2.exit ≠ some .cancelled := by
  unfold readSitemaps
  split
  · next exit hexit => exact fun heq => exit_readRobots hexit (Option.some.inj heq)
  refine Loop.run_invariant _ (I := fun s : Sitemaps => s.exit ≠ some Exit.cancelled)
    (fun s t hs h => ?_) (fun heq => by cases heq)
  change Sitemaps.turn lib run scope site _ s = some t at h
  unfold Sitemaps.turn at h
  split at h
  · cases h
  split at h
  · cases h
  next sitemap rest hpending =>
    split at h
    · cases h
    split at h
    · cases h
      exact hs
    · cases h
      exact exit_receive (s := { s with
        pending := rest, seen := s.seen ++ [sitemap], count := s.count + 1 }) hs _

/-- What the second loop starts with. -/
theorem startCrawl_zero (s : Sitemaps) :
    (startCrawl lib run scope disallowed s).stored = ⟨0, 0, 0, 0, run.pageLimit⟩ ∧
      (startCrawl lib run scope disallowed s).progress = ⟨0, 0, 0, 0, run.pageLimit⟩ ∧
      (startCrawl lib run scope disallowed s).pages = [] ∧
      (startCrawl lib run scope disallowed s).loads = 0 ∧
      (s.exit ≠ some .cancelled →
        (startCrawl lib run scope disallowed s).exit ≠ some .cancelled) := by
  unfold startCrawl
  dsimp only
  split
  · exact ⟨rfl, rfl, rfl, rfl, id⟩
  split
  · exact ⟨rfl, rfl, rfl, rfl, fun _ => nofun⟩
  · exact ⟨rfl, rfl, rfl, rfl, id⟩

/-! ## The second loop -/

variable {c d : CrawlState}

theorem visit_status (current : DiscoveredURL) (progress : Progress) (f : Frontier)
    (answer : Fetch Html) :
    (visit lib run scope disallowed current progress f answer).page.status ≠ .queued := by
  unfold visit
  dsimp only
  split
  · nofun
  · nofun
  · split
    · nofun
    split
    · nofun
    split <;> nofun

/-- What a turn does to the row and to the pages. -/
structure Advanced (c d : CrawlState) : Prop where
  stored : d.stored = c.stored
  pages : ∃ pages, d.pages = c.pages ++ pages ∧ ∀ page ∈ pages, page.status ≠ .queued

theorem Advanced.refl (c : CrawlState) : Advanced c c :=
  ⟨rfl, [], by simp, fun page hp => by cases hp⟩

theorem Advanced.trans {e : CrawlState} (hcd : Advanced c d) (hde : Advanced d e) :
    Advanced c e := by
  obtain ⟨pages, heq, hpages⟩ := hcd.pages
  obtain ⟨more, heq', hmore⟩ := hde.pages
  refine ⟨hde.stored.trans hcd.stored, pages ++ more, ?_, fun page hp => ?_⟩
  · rw [heq', heq, List.append_assoc]
  · exact (List.mem_append.mp hp).elim (hpages page) (hmore page)

/-- **No turn writes the counts to the row.** -/
theorem advanced_turn (h : c.turn lib run scope site disallowed = some d) : Advanced c d := by
  unfold CrawlState.turn at h
  split at h
  · cases h
  split at h
  · cases h
  split at h
  · cases h
  dsimp only at h
  split at h
  · cases h
    unfold CrawlState.turnPage
    split
    · exact ⟨rfl, [], by simp, fun page hp => by cases hp⟩
    dsimp only
    split
    · exact ⟨rfl, [], by simp, fun page hp => by cases hp⟩
    refine ⟨rfl, [_], rfl, fun page hp => ?_⟩
    rw [List.mem_singleton.mp hp]
    exact visit_status _ _ _ _
  · cases h
    exact ⟨rfl, [], by simp, fun page hp => by cases hp⟩

theorem advanced_run (c : CrawlState) :
    Advanced c ((pageLoop lib run scope site disallowed).run c) :=
  Loop.run_rel (pageLoop lib run scope site disallowed) (R := Advanced) Advanced.refl
    (fun _ _ _ => Advanced.trans) (fun _ _ h => advanced_turn h) c

/-- **The row keeps the zeros of the start.** -/
theorem stored_run : (crawlPages lib run scope site).stored = ⟨0, 0, 0, 0, run.pageLimit⟩ :=
  (advanced_run _).stored.trans (startCrawl_zero _).1

/-- Every stored page is counted under its status. -/
theorem countStatus_sum {pages : List Page} (h : ∀ page ∈ pages, page.status ≠ .queued) :
    countStatus .fetched pages + countStatus .skipped pages + countStatus .failed pages
      = pages.length := by
  induction pages with
  | nil => rfl
  | cons page pages ih =>
    have hpage := h page (List.mem_cons_self ..)
    have hrest := ih (fun p hp => h p (List.mem_cons_of_mem _ hp))
    simp only [countStatus, List.countP_cons, List.length_cons] at hrest ⊢
    cases hstatus : page.status with
    | queued => exact absurd hstatus hpage
    | fetched => simp; omega
    | skipped => simp; omega
    | failed => simp; omega

theorem finish_stored (s : Sitemaps) (c : CrawlState) :
    (finish scope site s c).progress = c.stored ∧ (finish scope site s c).pages = c.pages := by
  unfold finish
  dsimp only
  split
  · exact ⟨rfl, rfl⟩
  · split <;> exact ⟨rfl, rfl⟩

/-- What the coverage says of the limit. -/
theorem finish_limit {coverage : Coverage} (h : (finish scope site s c).coverage = some coverage)
    (hlimit : coverage.pageLimitReached = true) :
    site.running c.loads = true ∧ (c.exit = none ∨ c.exit = some .cancelled) ∧
      c.frontier.queue ≠ [] := by
  unfold finish at h
  dsimp only at h
  split at h
  · cases h
  next hrunning =>
    rw [Bool.not_eq_false] at hrunning
    split at h
    · cases h
    · cases h
    · cases h
    · next hexit =>
      cases h
      exact ⟨hrunning, .inr hexit, of_decide_eq_true hlimit⟩
    · next hexit =>
      cases h
      exact ⟨hrunning, .inl hexit, of_decide_eq_true hlimit⟩

/-! ## Crawls that store no page -/

theorem running_mono {n m : Nat} (hnm : n ≤ m) (h : site.running n = false) :
    site.running m = false := by
  unfold Site.running at h ⊢
  cases hloads : site.runningLoads with
  | none =>
    rw [hloads] at h
    cases h
  | some k =>
    rw [hloads, Option.all_some, decide_eq_false_iff_not] at h
    rw [Option.all_some, decide_eq_false_iff_not]
    omega

/-- The state in which a crawl without pages is left. -/
structure Stopped (run : Run) (site : Site) (c : CrawlState) : Prop where
  pages : c.pages = []
  limit : site.running c.loads = true → (c.exit = none ∨ c.exit = some .cancelled) →
    c.frontier.queue ≠ [] → run.pageLimit ≤ 0

theorem stopped_run (hexit : c.exit ≠ some .cancelled) (hpages : c.pages = [])
    (hloads : c.loads = 0) (hfetched : c.progress.fetched = 0)
    (hno : ¬ (c.exit = none ∧ 0 < run.pageLimit ∧ site.running 0 = true ∧
      ∃ current rest, c.frontier.queue = current :: rest ∧
        storable current.url = true ∧ site.insertFails 0 = false ∧
        (visit lib run scope disallowed current c.stored ⟨rest, c.frontier.seen⟩
          (fetchText lib current.url (site.page current.url))).page.storable = true ∧
        site.commitFails 0 = false)) :
    Stopped run site ((pageLoop lib run scope site disallowed).run c) := by
  -- a turn that leaves the loop leaves it in the state it made
  have hleft : ∀ d : CrawlState, d.exit.isSome = true →
      (pageLoop lib run scope site disallowed).run d = d := by
    intro d hd
    refine Loop.run_of_none ?_
    show CrawlState.turn lib run scope site disallowed d = none
    unfold CrawlState.turn
    rw [if_pos hd]
  cases hturn : c.turn lib run scope site disallowed with
  | none =>
    rw [Loop.run_of_none hturn]
    refine ⟨hpages, fun _ hleave hqueue => ?_⟩
    unfold CrawlState.turn at hturn
    rw [hleave.resolve_right hexit] at hturn
    simp only [Option.isSome_none, Bool.false_eq_true, if_false] at hturn
    split at hturn
    · next hnil => exact absurd hnil hqueue
    split at hturn
    · next hle =>
      rw [hfetched] at hle
      exact_mod_cast hle
    · cases hturn
  | some d =>
    rw [Loop.run_of_some hturn]
    unfold CrawlState.turn at hturn
    split at hturn
    · cases hturn
    next hnone =>
      rw [Bool.not_eq_true, Option.isSome_eq_false_iff, Option.isNone_iff_eq_none] at hnone
      split at hturn
      · cases hturn
      next current rest hqueue =>
        split at hturn
        · cases hturn
        next hpositive =>
          rw [hfetched, not_le] at hpositive
          dsimp only at hturn
          rw [hloads] at hturn
          split at hturn
          · next hrunning =>
            cases hturn
            unfold CrawlState.turnPage
            split
            · rw [hleft _ rfl]
              exact ⟨hpages, fun _ hleave => by rcases hleave with h | h <;> cases h⟩
            next hinsert =>
              dsimp only
              split
              · rw [hleft _ rfl]
                exact ⟨hpages, fun _ hleave => by rcases hleave with h | h <;> cases h⟩
              next hcommit =>
                rw [not_or, Bool.not_eq_false, Bool.not_eq_true] at hinsert hcommit
                exact absurd ⟨hnone, by exact_mod_cast hpositive, hrunning, current, rest,
                  hqueue, hinsert.1, hinsert.2, hcommit.1, hcommit.2⟩ hno
          · next hcancelled =>
            cases hturn
            rw [hleft _ rfl]
            refine ⟨hpages, fun hrunning => ?_⟩
            rw [running_mono (Nat.zero_le _) (Bool.not_eq_true _ ▸ hcancelled)] at hrunning
            cases hrunning

/-- The first page is stored. -/
theorem pages_of_storesPage (h : StoresPage lib run scope site) :
    (crawlPages lib run scope site).pages ≠ [] := by
  obtain ⟨hexit, hpositive, hrunning, current, rest, hqueue, hstorable, hinsert, hpage, hcommit⟩ :=
    h
  obtain ⟨_, hprogress, _, hloads, _⟩ := @startCrawl_zero lib run scope
    (readSitemaps lib run scope site).1 (readSitemaps lib run scope site).2
  have hturn : ∃ d, (startCrawl lib run scope (readSitemaps lib run scope site).1
      (readSitemaps lib run scope site).2).turn lib run scope site
        (readSitemaps lib run scope site).1 = some d ∧ d.pages ≠ [] := by
    have hlimit : ¬ run.pageLimit ≤ ((0 : Nat) : Int) := by simpa using hpositive
    unfold CrawlState.turn
    simp only [hexit, Option.isSome_none, Bool.false_eq_true, if_false, hqueue, hprogress, hlimit,
      hloads, hrunning, if_true]
    refine ⟨_, rfl, ?_⟩
    unfold CrawlState.turnPage
    simp only [hstorable, hinsert, hpage, hcommit, Bool.true_eq_false, Bool.false_eq_true,
      or_self, if_false]
    exact List.append_ne_nil_of_right_ne_nil _ (List.cons_ne_nil _ _)
  obtain ⟨d, hd, hne⟩ := hturn
  unfold crawlPages
  dsimp only
  rw [Loop.run_of_some hd]
  obtain ⟨pages, heq, _⟩ := (@advanced_run lib run scope site
    (readSitemaps lib run scope site).1 d).pages
  rw [heq]
  exact List.append_ne_nil_of_left_ne_nil hne _

/-- **When the counts of a crawl are right.** With a limit that is not negative, if and only if no
page is stored. -/
theorem crawl_counted_iff {outcome : Outcome}
    (hscope : normalizeRootUrl lib run.rootUrl = some scope)
    (h : runCompetitorCrawl lib run site = some outcome) :
    Counted run outcome ↔ 0 ≤ run.pageLimit ∧ ¬ StoresPage lib run scope site := by
  rw [runCompetitorCrawl, hscope, Option.map_some] at h
  obtain rfl := Option.some.inj h
  obtain ⟨hprogress, hpages⟩ := @finish_stored scope site
    (readSitemaps lib run scope site).2 (crawlPages lib run scope site)
  rw [stored_run] at hprogress
  obtain ⟨_, hzero, hnil, hloads, hexit⟩ := @startCrawl_zero lib run scope
    (readSitemaps lib run scope site).1 (readSitemaps lib run scope site).2
  constructor
  · intro hcounted
    refine ⟨(Int.natCast_nonneg _).trans hcounted.budget, fun hstores => ?_⟩
    obtain ⟨pages, heq, hstatus⟩ := (@advanced_run lib run scope site
      (readSitemaps lib run scope site).1
      (startCrawl lib run scope (readSitemaps lib run scope site).1
        (readSitemaps lib run scope site).2)).pages
    rw [hnil, List.nil_append] at heq
    have hsum := countStatus_sum hstatus
    have hcrawl : (crawlPages lib run scope site).pages = pages := heq
    rw [← hcrawl, ← hpages, ← hcounted.fetched, ← hcounted.skipped, ← hcounted.failed,
      hprogress, hpages] at hsum
    exact pages_of_storesPage hstores (List.length_eq_zero_iff.mp hsum.symm)
  · rintro ⟨hlimit, hno⟩
    have hstopped : Stopped run site (crawlPages lib run scope site) :=
      stopped_run (hexit exit_readSitemaps) hnil hloads (by rw [hzero]) hno
    have hempty := hpages.trans hstopped.pages
    refine ⟨?_, ?_, ?_, ?_, fun coverage hcoverage hreached => ?_⟩
    · rw [hempty]
      exact hlimit
    · rw [hprogress, hempty]
      rfl
    · rw [hprogress, hempty]
      rfl
    · rw [hprogress, hempty]
      rfl
    · obtain ⟨hrunning, hleave, hqueue⟩ := finish_limit hcoverage hreached
      rw [hempty]
      exact le_antisymm hlimit (hstopped.limit hrunning hleave hqueue)

end

/-! ## Four pages with a limit of two -/

def smallRun : Run := ⟨"https://rival.test/".toList, some 2, none⟩

/-- A home page with three links, and no `robots.txt`. -/
def smallSite : Site where
  robots := .response 404 []
  sitemap _ := .response 404 none
  page u :=
    if u = rivalScope.rootUrl then
      .response 200 ⟨["/1".toList, "/2".toList, "/3".toList], none, false, true⟩
    else .response 200 ⟨[], none, false, true⟩
  runningLoads := none
  insertFails _ := false
  commitFails _ := false

theorem crawl_counted_cancelled :
    ∃ outcome, runCompetitorCrawl asciiLibrary smallRun
        { smallSite with runningLoads := some 0 } = some outcome ∧ Counted smallRun outcome := by
  have hscope : normalizeRootUrl asciiLibrary smallRun.rootUrl = some rivalScope := by
    decide +kernel
  refine ⟨_, by rw [runCompetitorCrawl, hscope, Option.map_some], ?_⟩
  refine (crawl_counted_iff hscope (by rw [runCompetitorCrawl, hscope, Option.map_some])).mpr
    ⟨by decide, fun hstores => ?_⟩
  cases hstores.2.2.1

theorem readSitemaps_small :
    (readSitemaps asciiLibrary smallRun rivalScope smallSite)
      = ([], ⟨[], ["https://rival.test/sitemap.xml".toList], 1, ⟨[], []⟩, none⟩) := by
  have hread : readRobots asciiLibrary rivalScope smallSite.robots = .ok ([], []) := by rfl
  unfold readSitemaps
  rw [hread]
  dsimp only
  rw [Loop.run_eq_runFor (n := 1) (by rfl)]
  rfl

theorem crawl_counts_lost :
    ∃ outcome, runCompetitorCrawl asciiLibrary smallRun smallSite = some outcome ∧
      countStatus .fetched outcome.pages = 4 ∧ outcome.progress.fetched = 0 ∧
      ¬ Counted smallRun outcome := by
  have hscope : normalizeRootUrl asciiLibrary smallRun.rootUrl = some rivalScope := by
    decide +kernel
  have hcrawl : countStatus .fetched (crawlPages asciiLibrary smallRun rivalScope smallSite).pages
      = 4 := by
    unfold crawlPages
    rw [readSitemaps_small, Loop.run_eq_runFor (n := 4) (by rfl)]
    rfl
  obtain ⟨hprogress, hpages⟩ := @finish_stored rivalScope smallSite
    (readSitemaps asciiLibrary smallRun rivalScope smallSite).2
    (crawlPages asciiLibrary smallRun rivalScope smallSite)
  rw [stored_run] at hprogress
  refine ⟨_, by rw [runCompetitorCrawl, hscope, Option.map_some], ?_, ?_, fun hcounted => ?_⟩
  · rw [hpages, hcrawl]
  · rw [hprogress]
  · have hbudget := hcounted.budget
    rw [hpages, hcrawl] at hbudget
    exact absurd hbudget (by decide)

end MegaPanel.Crawl

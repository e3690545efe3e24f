import MegaPanel.Crawl.Model

set_option autoImplicit false

/-! # What a crawl walks through

Whatever the site answers, the queue of pages only ever grows by new URLs that were found in the
scope, that are not too deep and that the rules allow (`Grown`). From this the invariant of the
two loops follows (`Sitemaps.Sound`, `CrawlState.Sound`): what was requested and what is queued are
different URLs, all of them admitted. -/

namespace MegaPanel.Crawl

open MegaPanel.Lib MegaPanel.Lib.Url MegaPanel.Lib.Text MegaPanel.Ssrf

/-! ## Paths of the scope -/

variable {url : Url}

theorem collapseSlashes_idem : ∀ path : List Char,
    collapseSlashes (collapseSlashes path) = collapseSlashes path
  | [] | [_] => rfl
  | c :: d :: rest => by
    have ih := collapseSlashes_idem (d :: rest)
    have hhead := head_collapseSlashes (d :: rest)
    conv_lhs => rw [collapseSlashes]
    conv_rhs => rw [collapseSlashes]
    split
    · exact ih
    · next hne =>
      cases htail : collapseSlashes (d :: rest) with
      | nil =>
        rw [htail] at hhead
        cases hhead
      | cons e more =>
        rw [htail] at hhead ih
        obtain rfl : e = d := Option.some.inj hhead
        rw [collapseSlashes, if_neg hne, ih]

/-- The paths of the scope that a crawl can come to: those without two slashes in a row, and that
of the root. -/
structure Reachable (scope : CrawlScope) (path : List Char) : Prop where
  isUrlPath : IsUrlPath path
  collapsed : collapseSlashes path = path ∨ scope.origin ++ path = scope.rootUrl

/-- A URL that a crawl comes to. -/
def Found (scope : CrawlScope) (url : Url) : Prop :=
  ∃ path, url = scope.origin ++ path ∧ Reachable scope path

theorem Found.holds {scope : CrawlScope} (h : Found scope url) : scope.Holds url := by
  obtain ⟨path, heq, hreach⟩ := h
  exact ⟨path, heq, hreach.isUrlPath⟩

theorem found_root {scope : CrawlScope} (h : scope.Holds scope.rootUrl) :
    Found scope scope.rootUrl := by
  obtain ⟨path, heq, hpath⟩ := h
  exact ⟨path, heq, hpath, .inr heq.symm⟩

theorem found_normalized {lib : Library} {scope : CrawlScope} {value : Url} (hplain : scope.Plain)
    (h : normalizeSameOriginUrl lib scope value = some (some url)) : Found scope url := by
  obtain ⟨parsed, hparsed, hacc, _, rfl⟩ := normalizeSameOriginUrl_eq_some.mp h
  refine ⟨collapseSlashes (orSlash parsed.path), ?_,
    (isUrlPath_orSlash hparsed (netloc_ne_nil hacc.secure)).collapseSlashes,
    .inl (collapseSlashes_idem _)⟩
  rw [hplain.1]
  exact urlunsplit_eq _ _

/-! ## What robots.txt, sitemaps and pages name -/

section

variable {lib : Library} {scope : CrawlScope} (hplain : scope.Plain)
include hplain

theorem found_collectLocs : ∀ {locs : List (List Char)} {urls result : List Url},
    collectLocs lib scope urls locs = some result → (∀ u ∈ urls, Found scope u) →
      ∀ u ∈ result, Found scope u
  | [], urls, result, h, hurls => by
    cases h
    exact hurls
  | text :: rest, urls, result, h, hurls => by
    unfold collectLocs at h
    split at h
    · exact found_collectLocs h hurls
    split at h
    · cases h
    next normalized hnorm =>
      have hnew : ∀ u ∈ urls ++ normalized.toList, Found scope u := by
        intro u hu
        rcases List.mem_append.mp hu with hu | hu
        · exact hurls u hu
        · rw [Option.mem_toList] at hu
          exact found_normalized hplain (hu ▸ hnorm)
      dsimp only at h
      split at h
      · cases h
        exact hnew
      · exact found_collectLocs h hnew

theorem found_sitemapUrls {locs : Option (List (List Char))} {urls : List Url}
    (h : sitemapUrls lib scope locs = some urls) : ∀ u ∈ urls, Found scope u := by
  unfold sitemapUrls at h
  split at h
  · cases h
    exact fun u hu => by cases hu
  · obtain ⟨result, hresult, rfl⟩ := Option.map_eq_some_iff.mp h
    intro u hu
    exact found_collectLocs hplain hresult (fun v hv => by cases hv) u (List.mem_eraseDups.mp hu)

theorem found_addLinks {pageUrl : Url} : ∀ {hrefs : List (List Char)} {links result : List Url},
    hrefs.foldlM (addLink lib scope pageUrl) links = some result →
      (∀ u ∈ links, Found scope u) → ∀ u ∈ result, Found scope u
  | [], links, result, h, hlinks => by
    cases h
    exact hlinks
  | href :: hrefs, links, result, h, hlinks => by
    rw [List.foldlM_cons, Option.bind_eq_bind, Option.bind_eq_some_iff] at h
    obtain ⟨more, hmore, h⟩ := h
    refine found_addLinks h (fun u hu => ?_)
    obtain ⟨normalized, hres, rfl⟩ := Option.map_eq_some_iff.mp hmore
    obtain ⟨value, _, hnorm⟩ := Option.bind_eq_some_iff.mp hres
    cases normalized with
    | none => exact hlinks u hu
    | some url =>
      dsimp only at hu
      split at hu
      · exact hlinks u hu
      rcases List.mem_append.mp hu with hu | hu
      · exact hlinks u hu
      · rw [List.mem_singleton.mp hu]
        exact found_normalized hplain hnorm

theorem found_extractPageSignals {pageUrl : Url} {html : Html} {canonical : Option Url}
    {links : List Url}
    (h : extractPageSignals lib scope pageUrl html = some (canonical, links)) :
    ∀ u ∈ links, Found scope u := by
  unfold extractPageSignals at h
  split at h
  · cases h
  split at h
  · cases h
  next found hfound =>
    have hall := found_addLinks hplain hfound (fun u hu => by cases hu)
    split at h
    · cases h
      exact hall
    · obtain ⟨c, _, heq⟩ := Option.map_eq_some_iff.mp h
      cases heq
      exact hall

end

/-! ## The growth of the queue -/

/-- What has to be true of an item before it is queued. -/
structure Admitted (lib : Library) (run : Run) (scope : CrawlScope)
    (disallowed : List (List Char)) (item : DiscoveredURL) : Prop where
  found : Found scope item.url
  depth : (item.depth : Int) ≤ run.depthLimit
  allowed : isAllowedByRobots lib item.url disallowed = some true

/-- The second queue is the first one with admitted items behind it. -/
structure Grown (lib : Library) (run : Run) (scope : CrawlScope) (disallowed : List (List Char))
    (f g : Frontier) : Prop where
  added : ∃ items : List DiscoveredURL, g.queue = f.queue ++ items ∧
    g.seen = f.seen ++ items.map (·.url) ∧ ∀ item ∈ items, Admitted lib run scope disallowed item
  nodup : f.seen.Nodup → g.seen.Nodup
  length : f.seen.length ≤ maxSitemapUrls → g.seen.length ≤ maxSitemapUrls

section

variable {lib : Library} {run : Run} {scope : CrawlScope} {disallowed : List (List Char)}

theorem Grown.refl (f : Frontier) : Grown lib run scope disallowed f f :=
  ⟨⟨[], by simp, by simp, fun item hi => by cases hi⟩, id, id⟩

variable {f g : Frontier}

theorem Grown.trans {h : Frontier} (hfg : Grown lib run scope disallowed f g)
    (hgh : Grown lib run scope disallowed g h) : Grown lib run scope disallowed f h := by
  obtain ⟨items, hqueue, hseen, hitems⟩ := hfg.added
  obtain ⟨more, hqueue', hseen', hmore⟩ := hgh.added
  refine ⟨⟨items ++ more, ?_, ?_, ?_⟩, hgh.nodup ∘ hfg.nodup, hgh.length ∘ hfg.length⟩
  · rw [hqueue', hqueue, List.append_assoc]
  · rw [hseen', hseen, List.map_append, List.append_assoc]
  · intro item hi
    exact (List.mem_append.mp hi).elim (hitems item) (hmore item)

theorem grown_enqueue {item : DiscoveredURL} (hfound : Found scope item.url)
    (h : enqueue lib run disallowed f item = some g) : Grown lib run scope disallowed f g := by
  unfold enqueue at h
  split at h
  · next hnew =>
    obtain ⟨allowed, hallowed, rfl⟩ := Option.map_eq_some_iff.mp h
    cases allowed with
    | false => exact Grown.refl f
    | true =>
      refine ⟨⟨[item], rfl, rfl, ?_⟩, fun hnodup => ?_, fun _ => ?_⟩
      · intro i hi
        rw [List.mem_singleton.mp hi]
        exact ⟨hfound, hnew.2.2, hallowed⟩
      · exact List.Nodup.append hnodup (List.nodup_singleton _)
          (List.disjoint_singleton.mpr hnew.1)
      · simpa using hnew.2.1
  · cases h
    exact Grown.refl f

theorem grown_enqueueAll : ∀ {items : List DiscoveredURL} {f : Frontier},
    (∀ item ∈ items, Found scope item.url) →
      Grown lib run scope disallowed f (enqueueAll lib run disallowed f items).1
  | [], f, _ => Grown.refl f
  | item :: items, f, hfound => by
    unfold enqueueAll
    split
    · exact Grown.refl f
    · next g hg =>
      exact (grown_enqueue (hfound item (List.mem_cons_self ..)) hg).trans
        (grown_enqueueAll (fun i hi => hfound i (List.mem_cons_of_mem _ hi)))

theorem grown_discover : ∀ {urls pending : List Url} {f : Frontier},
    (∀ u ∈ urls, Found scope u) →
      Grown lib run scope disallowed f (discover lib run disallowed pending f urls).1.2
  | [], _, f, _ => Grown.refl f
  | url :: urls, pending, f, hfound => by
    have hrest : ∀ u ∈ urls, Found scope u := fun u hu => hfound u (List.mem_cons_of_mem _ hu)
    unfold discover
    split
    · exact grown_discover hrest
    split
    · exact Grown.refl f
    · next g hg =>
      exact (grown_enqueue (hfound url (List.mem_cons_self ..)) hg).trans
        (grown_discover hrest)

end

/-! ## The first loop -/

variable {s : Sitemaps}

/-- **The invariant of the first loop.** -/
structure Sitemaps.Sound (lib : Library) (run : Run) (scope : CrawlScope)
    (disallowed : List (List Char)) (s : Sitemaps) : Prop where
  grown : Grown lib run scope disallowed ⟨[], []⟩ s.frontier
  count : s.count = s.seen.length
  bounded : s.count ≤ maxSitemaps

section

variable {lib : Library} {run : Run} {scope : CrawlScope} {site : Site}
  {disallowed : List (List Char)}

theorem grown_receive (hplain : scope.Plain) (s : Sitemaps)
    (answer : Fetch (Option (List (List Char)))) :
    Grown lib run scope disallowed s.frontier
      (s.receive lib run scope disallowed answer).frontier := by
  unfold Sitemaps.receive
  split
  · exact Grown.refl _
  · exact Grown.refl _
  split
  · exact Grown.refl _
  split
  · exact Grown.refl _
  · next urls hurls => exact grown_discover (found_sitemapUrls hplain hurls)

theorem Sitemaps.Sound.turn (hplain : scope.Plain) {t : Sitemaps}
    (hs : s.Sound lib run scope disallowed) (h : s.turn lib run scope site disallowed = some t) :
    t.Sound lib run scope disallowed := by
  unfold Sitemaps.turn at h
  split at h
  · cases h
  split at h
  · cases h
  next sitemap rest hpending =>
    split at h
    · cases h
    next hcount =>
      split at h
      · cases h
        exact ⟨hs.grown, hs.count, hs.bounded⟩
      · cases h
        refine ⟨hs.grown.trans (grown_receive hplain
          { s with pending := rest, seen := s.seen ++ [sitemap], count := s.count + 1 } _), ?_, ?_⟩
        · rw [(Sitemaps.receive_count ..).1, (Sitemaps.receive_count ..).2]
          simp [hs.count]
        · rw [(Sitemaps.receive_count ..).1]
          exact Nat.not_le.mp hcount

theorem sound_readSitemaps (hplain : scope.Plain) :
    (readSitemaps lib run scope site).2.Sound lib run scope
      (readSitemaps lib run scope site).1 := by
  unfold readSitemaps
  split
  · exact ⟨Grown.refl _, rfl, Nat.zero_le _⟩
  · refine Loop.run_invariant _ (I := Sitemaps.Sound lib run scope _)
      (fun s t hs hturn => hs.turn hplain hturn) ⟨Grown.refl _, rfl, Nat.zero_le _⟩

end

/-! ## The second loop -/

/-- **The invariant of the second loop.** -/
structure CrawlState.Sound (lib : Library) (run : Run) (scope : CrawlScope)
    (disallowed : List (List Char)) (c : CrawlState) : Prop where
  admitted : ∀ item ∈ c.fetches ++ c.frontier.queue, Admitted lib run scope disallowed item
  storable : ∀ item ∈ c.fetches, storable item.url = true
  order : ((c.fetches ++ c.frontier.queue).map (·.url)).Sublist c.frontier.seen
  nodup : c.frontier.seen.Nodup
  length : c.frontier.seen.length ≤ maxSitemapUrls

section

variable {lib : Library} {run : Run} {scope : CrawlScope} {site : Site}
  {disallowed : List (List Char)}

variable {c d : CrawlState}

/-- The queue may grow. -/
theorem CrawlState.Sound.grow (hc : c.Sound lib run scope disallowed)
    (hgrown : Grown lib run scope disallowed c.frontier d.frontier)
    (hfetches : d.fetches = c.fetches) : d.Sound lib run scope disallowed := by
  obtain ⟨items, hqueue, hseen, hitems⟩ := hgrown.added
  refine ⟨?_, hfetches ▸ hc.storable, ?_, hgrown.nodup hc.nodup, hgrown.length hc.length⟩
  · rw [hfetches, hqueue, ← List.append_assoc]
    intro item hi
    exact (List.mem_append.mp hi).elim (hc.admitted item) (hitems item)
  · rw [hfetches, hqueue, ← List.append_assoc, List.map_append, hseen]
    exact hc.order.append (List.Sublist.refl _)

variable {rest : List DiscoveredURL}

/-- The first item of the queue may be dropped. -/
theorem CrawlState.Sound.drop {current : DiscoveredURL} (hc : c.Sound lib run scope disallowed)
    (hqueue : c.frontier.queue = current :: rest) (hd : d.frontier = ⟨rest, c.frontier.seen⟩)
    (hfetches : d.fetches = c.fetches) : d.Sound lib run scope disallowed := by
  refine ⟨fun item hi => hc.admitted item ?_, hfetches ▸ hc.storable, ?_, hd ▸ hc.nodup,
    hd ▸ hc.length⟩
  · rw [hfetches, hd] at hi
    rw [hqueue]
    exact List.mem_append.mpr ((List.mem_append.mp hi).imp_right (List.mem_cons_of_mem _))
  · rw [hfetches, hd]
    refine List.Sublist.trans (List.Sublist.map _ ?_) hc.order
    rw [hqueue]
    exact (List.Sublist.refl _).append (List.sublist_cons_self ..)

/-- The first item of the queue may be requested. -/
theorem CrawlState.Sound.fetch {current : DiscoveredURL} (hc : c.Sound lib run scope disallowed)
    (hqueue : c.frontier.queue = current :: rest) (hstorable : Crawl.storable current.url = true)
    (hd : d.frontier = ⟨rest, c.frontier.seen⟩) (hfetches : d.fetches = c.fetches ++ [current]) :
    d.Sound lib run scope disallowed := by
  have hsame : d.fetches ++ d.frontier.queue = c.fetches ++ c.frontier.queue := by
    rw [hfetches, hd, hqueue, List.append_assoc]
    rfl
  refine ⟨hsame ▸ hc.admitted, ?_, hsame ▸ hd ▸ hc.order, hd ▸ hc.nodup, hd ▸ hc.length⟩
  intro item hi
  rw [hfetches] at hi
  rcases List.mem_append.mp hi with hi | hi
  · exact hc.storable item hi
  · rw [List.mem_singleton.mp hi]
    exact hstorable

theorem grown_visit (hplain : scope.Plain) (current : DiscoveredURL) (progress : Progress)
    (f : Frontier) (answer : Fetch Html) :
    Grown lib run scope disallowed f
      (visit lib run scope disallowed current progress f answer).frontier := by
  rcases visit_frontier lib run scope disallowed current progress f answer with
    heq | ⟨html, canonical, links, hextract, heq⟩
  · rw [heq]
    exact Grown.refl f
  · rw [heq]
    refine grown_enqueueAll (fun item hi => ?_)
    obtain ⟨link, hlink, rfl⟩ := List.mem_map.mp hi
    exact found_extractPageSignals hplain hextract link hlink

theorem CrawlState.Sound.turn (hplain : scope.Plain) (hc : c.Sound lib run scope disallowed)
    (h : c.turn lib run scope site disallowed = some d) : d.Sound lib run scope disallowed := by
  unfold CrawlState.turn at h
  split at h
  · cases h
  split at h
  · cases h
  next current rest hqueue =>
    split at h
    · cases h
    dsimp only at h
    split at h
    · cases h
      unfold CrawlState.turnPage
      split
      · exact hc.drop hqueue rfl rfl
      · next hinsert =>
        rw [not_or, Bool.not_eq_false] at hinsert
        have hfetched := hc.fetch (d :=
          { c with frontier := ⟨rest, c.frontier.seen⟩, fetches := c.fetches ++ [current] })
          hqueue hinsert.1 rfl rfl
        have hgrown := @grown_visit lib run scope disallowed hplain
          current c.stored ⟨rest, c.frontier.seen⟩
          (fetchText lib current.url (site.page current.url))
        dsimp only
        split
        · exact hfetched.grow hgrown rfl
        · exact hfetched.grow hgrown rfl
    · cases h
      exact hc.drop hqueue rfl rfl

theorem sound_startCrawl (hroot : scope.Holds scope.rootUrl)
    (hs : s.Sound lib run scope disallowed) :
    (startCrawl lib run scope disallowed s).Sound lib run scope disallowed := by
  have hbegin : ∀ exit, (⟨s.frontier, ⟨0, 0, 0, 0, run.pageLimit⟩, ⟨0, 0, 0, 0, run.pageLimit⟩, 0,
      [], [], exit⟩ : CrawlState).Sound lib run scope disallowed := by
    intro exit
    obtain ⟨items, hqueue, hseen, hitems⟩ := hs.grown.added
    refine ⟨?_, fun item hi => absurd hi List.not_mem_nil, ?_, hs.grown.nodup List.nodup_nil,
      hs.grown.length (Nat.zero_le _)⟩
    · rw [hqueue]
      exact hitems
    · rw [hqueue, hseen]
      exact List.Sublist.refl _
  unfold startCrawl
  dsimp only
  split
  · exact hbegin _
  split
  · exact hbegin _
  · next g hg => exact (hbegin s.exit).grow (grown_enqueue (found_root hroot) hg) rfl

/-- **What was requested and what is queued.** -/
theorem sound_crawlPages (hplain : scope.Plain) (hroot : scope.Holds scope.rootUrl) :
    (crawlPages lib run scope site).Sound lib run scope (readSitemaps lib run scope site).1 := by
  unfold crawlPages
  exact Loop.run_invariant _ (I := CrawlState.Sound lib run scope _)
    (fun c d hc hturn => hc.turn hplain hturn)
    (sound_startCrawl hroot (sound_readSitemaps hplain))

end

end MegaPanel.Crawl

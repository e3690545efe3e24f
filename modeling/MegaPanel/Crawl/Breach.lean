import MegaPanel.Crawl.Scope
import MegaPanel.Lib.Strip

set_option autoImplicit false

/-! # Sites that lead a crawl to a path

For a path that a crawl can come to, a site is built whose crawl requests it. Where the path is not
that of the root, the first sitemap lists it behind so many other sitemaps (`decoys`) that the
queue of sitemaps is full when the path is read, whatever its ending is; the page is then the first
one in the queue of pages, and nothing else on the site answers. -/

namespace MegaPanel.Crawl

open MegaPanel.Lib MegaPanel.Lib.Url MegaPanel.Lib.Text MegaPanel.Ssrf

/-! ## Texts -/

variable {rule : List Char} {robots : Fetch (List Char)}

theorem length_collapseSlashes : ∀ path : List Char,
    (collapseSlashes path).length ≤ path.length
  | [] | [_] => le_rfl
  | c :: d :: rest => by
    have ih := length_collapseSlashes (d :: rest)
    unfold collapseSlashes
    split
    · exact ih.trans (Nat.le_succ _)
    · exact Nat.succ_le_succ ih

/-- The paths that stay as they are. -/
theorem collapseSlashes_eq_self_iff : ∀ path : List Char,
    collapseSlashes path = path ↔ path.IsChain (fun c d => ¬(c = '/' ∧ d = '/'))
  | [] | [_] => by simp [collapseSlashes]
  | c :: d :: rest => by
    have ih := collapseSlashes_eq_self_iff (d :: rest)
    have hstep : collapseSlashes (c :: d :: rest) = if c = '/' ∧ d = '/' then
        collapseSlashes (d :: rest) else c :: collapseSlashes (d :: rest) := by
      rw [collapseSlashes]
    rw [List.isChain_cons_cons, ← ih, hstep]
    split
    · next h =>
      constructor
      · intro heq
        have hlength := length_collapseSlashes (d :: rest)
        rw [heq] at hlength
        exact absurd hlength (by simp)
      · exact fun hno => absurd h hno.1
    · next h => exact ⟨fun heq => ⟨h, List.tail_eq_of_cons_eq heq⟩, fun hrest => by rw [hrest.2]⟩

/-- A rule that applies is a stripped text. -/
theorem groupRulesFrom_rule {lib : Library} : ∀ {ds : List Directive}
    {opening applies : Bool}, rule ∈ groupRulesFrom lib opening applies ds →
      rule ≠ [] ∧ ∃ d ∈ ds, d.value = rule
  | [], _, _, h => by cases h
  | d :: ds, opening, applies, h => by
    unfold groupRulesFrom at h
    split at h
    · obtain ⟨hne, d', hd', heq⟩ := groupRulesFrom_rule h
      exact ⟨hne, d', List.mem_cons_of_mem _ hd', heq⟩
    rcases List.mem_append.mp h with h | h
    · split at h
      · next hrule =>
        rw [List.mem_singleton.mp h]
        exact ⟨hrule.2.2, d, List.mem_cons_self .., rfl⟩
      · cases h
    · obtain ⟨hne, d', hd', heq⟩ := groupRulesFrom_rule h
      exact ⟨hne, d', List.mem_cons_of_mem _ hd', heq⟩

theorem robotsRules_rule {lib : Library} (h : rule ∈ robotsRules lib robots) :
    ∃ hne : rule ≠ [], isSpace (rule.getLast hne) = false := by
  unfold robotsRules at h
  split at h
  · next text =>
    obtain ⟨hne, d, hd, rfl⟩ := groupRulesFrom_rule h
    obtain ⟨line, _, hline⟩ := List.mem_filterMap.mp hd
    unfold directive at hline
    dsimp only at hline
    split_ifs at hline
    cases hline
    exact ⟨hne, stripBy_getLast hne⟩
  · cases h

/-! ## The guard and the host -/

variable {path : List Char}

section

variable {lib : Library} {run : Run} {scope : CrawlScope}

set_option maxRecDepth 20000 in
theorem isUrlPath_robots : IsUrlPath "/robots.txt".toList := ⟨by decide, by decide⟩

set_option maxRecDepth 20000 in
theorem isUrlPath_sitemap : IsUrlPath "/sitemap.xml".toList := ⟨by decide, by decide⟩

/-- The guard looks at the host alone. -/
theorem passesGuard_path (hplain : scope.Plain) {path' : List Char} (hpath : IsUrlPath path)
    (hpath' : IsUrlPath path') (h : passesGuard lib (scope.origin ++ path) = true) :
    passesGuard lib (scope.origin ++ path') = true := by
  unfold passesGuard at h ⊢
  rw [hplain.urlsplit_eq hpath] at h
  rw [hplain.urlsplit_eq hpath']
  split at h
  · next hvalid =>
    rw [if_pos hvalid]
    exact h
  · cases h

/-- What lets a crawl get past `robots.txt`. -/
theorem passes_of_readRobots {read : List (List Char) × List Url}
    (h : readRobots lib scope robots = .ok read) :
    passesGuard lib (scope.origin ++ "/robots.txt".toList) = true := by
  unfold readRobots fetchText at h
  unfold passesGuard
  cases hsplit : urlsplit lib.netlocValid (scope.origin ++ "/robots.txt".toList) with
  | none =>
    rw [hsplit] at h
    cases h
  | some parsed =>
    rw [hsplit] at h
    dsimp only at h
    rw [Option.any_some]
    cases hcheck : crawlerGuard.checkTarget lib.toLibrary parsed with
    | error e =>
      rw [hcheck] at h
      cases h
    | ok target => rfl

theorem netlocValid_of_passes (hplain : scope.Plain) (hpath : IsUrlPath path)
    (h : passesGuard lib (scope.origin ++ path) = true) : lib.netlocValid scope.host = true := by
  unfold passesGuard at h
  rw [hplain.urlsplit_eq hpath] at h
  split at h
  · next hvalid => exact hvalid
  · cases h

theorem found_robotsRead (hplain : scope.Plain) : ∀ {ds : List Directive} {r r' : Robots},
    ds.foldlM (Robots.read lib scope) r = some r' → (∀ u ∈ r.sitemapUrls, Found scope u) →
      ∀ u ∈ r'.sitemapUrls, Found scope u
  | [], r, r', h, hr => by
    cases h
    exact hr
  | d :: ds, r, r', h, hr => by
    rw [List.foldlM_cons, Option.bind_eq_bind, Option.bind_eq_some_iff] at h
    obtain ⟨next, hnext, h⟩ := h
    refine found_robotsRead hplain h ?_
    unfold Robots.read at hnext
    split at hnext
    · cases hnext
      exact hr
    split at hnext
    · cases hnext
      exact hr
    split at hnext
    · obtain ⟨normalized, hnorm, rfl⟩ := Option.map_eq_some_iff.mp hnext
      intro u hu
      rcases List.mem_append.mp hu with hu | hu
      · exact hr u hu
      · rw [Option.mem_toList] at hu
        exact found_normalized hplain (hu ▸ hnorm)
    · cases hnext
      exact hr

theorem found_readRobots (hplain : scope.Plain) {disallowed : List (List Char)}
    {sitemaps : List Url} (h : readRobots lib scope robots = .ok (disallowed, sitemaps)) :
    ∀ u ∈ sitemaps, Found scope u := by
  unfold readRobots at h
  split at h
  · cases h
  · cases h
  split at h
  · split at h
    · cases h
    · next directives hdirectives =>
      cases h
      unfold robotsDirectives at hdirectives
      obtain ⟨r, hr, heq⟩ := Option.map_eq_some_iff.mp hdirectives
      cases heq
      intro u hu
      exact found_robotsRead hplain hr (fun v hv => by cases hv) u
        (List.mem_eraseDups.mp (List.take_subset _ _ hu))
  split at h
  · cases h
    exact fun u hu => by cases hu
  · cases h

/-- The network location of the root, in front of any path, is normalised to the scope. -/
theorem exists_netloc {value : Url} (h : normalizeRootUrl lib value = some scope) :
    ∃ netloc : List Char, ∀ path, IsUrlPath path →
      normalizeSameOriginUrl lib scope ("https://".toList ++ (netloc ++ path))
        = some (some (scope.origin ++ collapseSlashes path)) := by
  unfold normalizeRootUrl at h
  split at h
  · cases h
  next parsed hparsed =>
    split at h
    · cases h
    next hforeign =>
      split at h
      · cases h
      next hcred =>
        split at h
        · cases h
        next port hport =>
          split_ifs at h with hother
          obtain rfl := Option.some.inj h
          rw [not_or] at hcred
          rw [Bool.not_eq_true] at hforeign hother
          have hcred' := Bool.not_eq_true _ ▸ hcred.1
          refine ⟨parsed.netloc, fun path hpath => ?_⟩
          obtain ⟨hvalid, hnetloc, _, _⟩ := urlsplit_parts hparsed
          have hscheme : parsed.scheme = "https".toList := by
            by_contra hne
            simp only [isForeign, ne_eq, hne, not_false_eq_true, decide_true,
              Bool.true_or] at hforeign
            cases hforeign
          have hsplit := @urlsplit_https lib.netlocValid _ _ hnetloc hpath.2 hpath.1
          rw [if_pos hvalid, ← hscheme] at hsplit
          have hpath' : orSlash path = path := if_neg (fun hnil => by
            rw [hnil] at hpath
            cases hpath.1)
          refine normalizeSameOriginUrl_eq_some.mpr
            ⟨_, hsplit, ⟨hforeign, hcred', ⟨port, hport, hother⟩, rfl⟩, rfl, ?_⟩
          rw [urlunsplit_eq, hpath']
          rfl

end

/-! ## A first loop that comes to nothing more -/

variable {f : Frontier}

/-- All the sitemaps that are still to be requested fail, and the queue of pages is `f`. -/
structure Sitemaps.Quiet (lib : Library) (site : Site) (f : Frontier) (s : Sitemaps) : Prop where
  frontier : s.frontier = f
  exit : s.exit = none
  pending : ∀ u ∈ s.pending,
    passesGuard lib u = true ∧ (u ∉ s.seen → site.sitemap u = .failed)

section

variable {lib : Library} {run : Run} {scope : CrawlScope} {site : Site}
  {disallowed : List (List Char)}

theorem Sitemaps.Quiet.turn {s t : Sitemaps} (hs : s.Quiet lib site f)
    (h : s.turn lib run scope site disallowed = some t) : t.Quiet lib site f := by
  unfold Sitemaps.turn at h
  split at h
  · cases h
  split at h
  · cases h
  next sitemap rest hpending =>
    have hrest : ∀ u ∈ rest, passesGuard lib u = true ∧ (u ∉ s.seen → site.sitemap u = .failed) :=
      fun u hu => hs.pending u (hpending ▸ List.mem_cons_of_mem _ hu)
    split at h
    · cases h
    split at h
    · cases h
      exact ⟨hs.frontier, hs.exit, hrest⟩
    · next hnew =>
      have hhead := hs.pending sitemap (hpending ▸ List.mem_cons_self ..)
      cases h
      rw [fetchText_of_passes hhead.1, hhead.2 hnew]
      exact ⟨hs.frontier, hs.exit, fun u hu =>
        ⟨(hrest u hu).1, fun hno => (hrest u hu).2 (fun hseen =>
          hno (List.mem_append_left _ hseen))⟩⟩

theorem Sitemaps.Quiet.left {f : Frontier} {s : Sitemaps} (hs : s.Quiet lib site f) :
    ((sitemapLoop lib run scope site disallowed).run s).frontier = f ∧
      ((sitemapLoop lib run scope site disallowed).run s).exit = none := by
  have hrun := Loop.run_invariant (sitemapLoop lib run scope site disallowed)
    (I := Sitemaps.Quiet lib site f) (fun s t hs hturn => hs.turn hturn) hs
  exact ⟨hrun.frontier, hrun.exit⟩

/-! ## A second loop that starts with a given page -/

theorem fetches_mono {c d : CrawlState} (h : c.turn lib run scope site disallowed = some d) :
    c.fetches ⊆ d.fetches := by
  unfold CrawlState.turn at h
  split at h
  · cases h
  split at h
  · cases h
  split at h
  · cases h
  dsimp only at h
  split at h
  · cases h
    unfold CrawlState.turnPage
    split
    · exact List.Subset.refl _
    dsimp only
    split <;> exact List.subset_append_left ..
  · cases h
    exact List.Subset.refl _

/-- The first page of the queue is requested. -/
theorem head_fetched {c : CrawlState} {item : DiscoveredURL} {rest : List DiscoveredURL}
    (hexit : c.exit = none) (hqueue : c.frontier.queue = item :: rest)
    (hlimit : (c.progress.fetched : Int) < run.pageLimit) (hstorable : storable item.url = true)
    (hrunning : site.running c.loads = true) (hinsert : site.insertFails c.loads = false) :
    item ∈ ((pageLoop lib run scope site disallowed).run c).fetches := by
  have hturn : ∃ d, c.turn lib run scope site disallowed = some d ∧ item ∈ d.fetches := by
    unfold CrawlState.turn
    rw [hexit, hqueue]
    simp only [Option.isSome_none, Bool.false_eq_true, if_false, not_le.mpr hlimit, hrunning,
      if_true]
    refine ⟨_, rfl, ?_⟩
    unfold CrawlState.turnPage
    rw [if_neg (by simp [hstorable, hinsert])]
    dsimp only
    split <;> exact List.mem_append_right _ (List.mem_singleton_self _)
  obtain ⟨d, hd, hmem⟩ := hturn
  rw [Loop.run_of_some hd]
  exact Loop.run_rel (pageLoop lib run scope site disallowed)
    (R := fun c d => c.fetches ⊆ d.fetches) (fun _ => List.Subset.refl _)
    (fun _ _ _ => List.Subset.trans) (fun _ _ h => fetches_mono h) d hmem

end

/-! ## The decoys -/

variable {room : Nat}

/-- The path of a sitemap that no site has. -/
def decoyPath (n : Nat) : List Char := '/' :: (List.replicate n 'd' ++ ".xml".toList)

set_option maxRecDepth 20000 in
theorem isUrlPath_decoy (n : Nat) : IsUrlPath (decoyPath n) := by
  refine ⟨rfl, fun c hc => ?_⟩
  rcases List.mem_cons.mp hc with rfl | hc
  · decide
  rcases List.mem_append.mp hc with hc | hc
  · rw [List.eq_of_mem_replicate hc]
    decide
  · have hall : ∀ c ∈ ".xml".toList, c ≠ '?' ∧ c ≠ '#' ∧ isUnsafe c = false := by decide
    exact hall c hc

theorem collapseSlashes_eq_self : ∀ {path : List Char}, '/' ∉ path.tail →
    collapseSlashes path = path
  | [], _ | [_], _ => rfl
  | c :: d :: rest, h => by
    have hd : d ≠ '/' := fun heq => h (heq ▸ List.mem_cons_self ..)
    have ih := @collapseSlashes_eq_self (d :: rest)
      (fun hm => h (List.mem_cons_of_mem _ hm))
    rw [collapseSlashes, if_neg (fun hcd => hd hcd.2), ih]

theorem collapseSlashes_decoy (n : Nat) : collapseSlashes (decoyPath n) = decoyPath n := by
  refine collapseSlashes_eq_self (fun hc => ?_)
  rcases List.mem_append.mp hc with hc | hc
  · exact absurd (List.eq_of_mem_replicate hc) (by decide)
  · revert hc
    decide

theorem xml_decoy (front : List Char) (n : Nat) :
    ".xml".toList.isSuffixOf (front ++ decoyPath n) = true := by
  rw [List.isSuffixOf_iff_suffix]
  exact ⟨front ++ '/' :: List.replicate n 'd', by simp [decoyPath]⟩

/-- The paths that the first sitemap lists: decoys that are longer than the path, and the path. -/
def listedPaths (room : Nat) (path : List Char) : List (List Char) :=
  (List.range room).map (fun i => decoyPath (path.length + i)) ++ [path]

theorem length_decoyPath (n : Nat) : (decoyPath n).length = n + 5 := by
  simp [decoyPath]

theorem nodup_listedPaths (room : Nat) (path : List Char) : (listedPaths room path).Nodup := by
  unfold listedPaths
  refine List.Nodup.append ?_ (List.nodup_singleton _) ?_
  · refine List.Nodup.map (fun i j hij => ?_) List.nodup_range
    have hlength := congrArg List.length hij
    simp only [length_decoyPath] at hlength
    omega
  · rw [List.disjoint_singleton, List.mem_map]
    rintro ⟨i, _, heq⟩
    have hlength := congrArg List.length heq
    rw [length_decoyPath] at hlength
    omega

/-- A path that is listed is found. -/
structure Listed (path : List Char) : Prop where
  isUrlPath : IsUrlPath path
  collapsed : collapseSlashes path = path
  last : ∀ h : path ≠ [], isSpace (path.getLast h) = false

theorem listed_decoy (n : Nat) : Listed (decoyPath n) := by
  refine ⟨isUrlPath_decoy n, collapseSlashes_decoy n, fun h => ?_⟩
  have hlast : (decoyPath n).getLast h = 'l' := by
    have hsplit : decoyPath n = ('/' :: List.replicate n 'd' ++ ".xm".toList) ++ ['l'] := by
      simp [decoyPath]
    simp only [hsplit, List.getLast_append_singleton]
  rw [hlast]
  decide

theorem listed_listedPaths (h : Listed path) : ∀ p ∈ listedPaths room path, Listed p := by
  intro p hp
  rcases List.mem_append.mp hp with hp | hp
  · obtain ⟨i, _, rfl⟩ := List.mem_map.mp hp
    exact listed_decoy _
  · rw [List.mem_singleton.mp hp]
    exact h

/-! ## What the crawl makes of the sitemap -/

section

variable {lib : Library} {run : Run} {scope : CrawlScope} {netloc : List Char}

/-- The text of a `loc` node. -/
def locText (netloc path : List Char) : List Char := "https://".toList ++ (netloc ++ path)

theorem strip_locText (h : Listed path) :
    stripBy isSpace (locText netloc path) = locText netloc path := by
  have hne : path ≠ [] := fun hnil => by
    have hhead := h.isUrlPath.1
    rw [hnil] at hhead
    cases hhead
  have heq : locText netloc path = ("https://".toList ++ netloc) ++ path :=
    (List.append_assoc ..).symm
  rw [heq]
  exact stripBy_append (c := 'h') rfl (by decide) h.last hne

theorem collectLocs_listed (hnetloc : ∀ path, IsUrlPath path →
    normalizeSameOriginUrl lib scope (locText netloc path)
      = some (some (scope.origin ++ collapseSlashes path))) :
    ∀ {paths : List (List Char)} {urls : List Url}, (∀ p ∈ paths, Listed p) →
      urls.length + paths.length < maxSitemapUrls →
        collectLocs lib scope urls (paths.map (locText netloc))
          = some (urls ++ paths.map (scope.origin ++ ·))
  | [], urls, _, _ => by simp [collectLocs]
  | path :: paths, urls, hlisted, hlength => by
    have hpath := hlisted path (List.mem_cons_self ..)
    have hne : locText netloc path ≠ [] := fun hnil => by cases hnil
    rw [List.length_cons] at hlength
    have hroom : ¬ maxSitemapUrls
        ≤ (urls ++ (some (scope.origin ++ path)).toList).length := by
      simp only [Option.toList_some, List.length_append, List.length_singleton]
      omega
    rw [List.map_cons, collectLocs, if_neg hne, strip_locText hpath, hnetloc path hpath.isUrlPath,
      hpath.collapsed]
    dsimp only
    rw [if_neg hroom, collectLocs_listed hnetloc
      (fun p hp => hlisted p (List.mem_cons_of_mem _ hp)) (by
        simp only [Option.toList_some, List.length_append, List.length_singleton]
        omega)]
    simp

theorem eraseDups_of_nodup : ∀ {urls : List Url}, urls.Nodup → urls.eraseDups = urls
  | [], _ => rfl
  | u :: urls, h => by
    rw [List.nodup_cons] at h
    have hfilter : urls.filter (fun v => !v == u) = urls := by
      refine List.filter_eq_self.mpr (fun v hv => ?_)
      simp only [Bool.not_eq_true', beq_eq_false_iff_ne]
      rintro rfl
      exact h.1 hv
    rw [List.eraseDups_cons, hfilter, eraseDups_of_nodup h.2]

theorem sitemapUrls_listed (hnetloc : ∀ path, IsUrlPath path →
    normalizeSameOriginUrl lib scope (locText netloc path)
      = some (some (scope.origin ++ collapseSlashes path))) (hpath : Listed path)
    (hroom : room ≤ maxSitemaps) :
    sitemapUrls lib scope (some ((listedPaths room path).map (locText netloc)))
      = some ((listedPaths room path).map (scope.origin ++ ·)) := by
  have hlength : ([] : List Url).length + (listedPaths room path).length < maxSitemapUrls := by
    simp only [listedPaths, List.length_nil, List.length_append, List.length_map,
      List.length_range, List.length_singleton, maxSitemaps, maxSitemapUrls] at hroom ⊢
    omega
  have hnodup : ((listedPaths room path).map (scope.origin ++ ·)).Nodup :=
    (nodup_listedPaths room path).map (List.append_right_injective _)
  unfold sitemapUrls
  dsimp only
  rw [collectLocs_listed hnetloc (listed_listedPaths hpath) hlength, List.nil_append,
    Option.map_some, eraseDups_of_nodup hnodup]

/-- While there is room, decoys go on the queue of sitemaps. -/
theorem discover_decoys {disallowed : List (List Char)} {tail : List Url} :
    ∀ {decoys pending : List Url}, (∀ u ∈ decoys, ".xml".toList.isSuffixOf u = true) →
      pending.length + decoys.length ≤ max pending.length maxSitemaps →
        discover lib run disallowed pending f (decoys ++ tail)
          = discover lib run disallowed (pending ++ decoys) f tail
  | [], pending, _, _ => by simp
  | u :: decoys, pending, hxml, hlength => by
    rw [List.length_cons] at hlength
    have hroom : pending.length < maxSitemaps := by omega
    rw [List.cons_append, discover, if_pos ⟨hxml u (List.mem_cons_self ..), hroom⟩,
      discover_decoys (fun v hv => hxml v (List.mem_cons_of_mem _ hv)) (by
        rw [List.length_append, List.length_singleton]
        omega)]
    simp

end

end MegaPanel.Crawl

import MegaPanel.Lib.Text
import MegaPanel.Ssrf.Guard

set_option autoImplicit false

/-! # The URLs of a crawl

The normalisers of the competitor crawler (`services/competitor_crawl.py`), which decide what is
of the same origin as the root of a crawl, and its reading of `robots.txt`, sitemaps and pages.
A URL is a text; `ValueError`, which `urlsplit`, `port` and `urljoin` raise, is the outer `none`.

What the normalisers return starts with the origin of the crawl, whose host has no character that
could end it or give it credentials, and has neither a query nor a fragment (`CrawlScope.Holds`).
-/

namespace MegaPanel.Crawl

open MegaPanel.Lib MegaPanel.Lib.Url MegaPanel.Lib.Text MegaPanel.Ssrf

abbrev Url := List Char

/-- The characters with a meaning in a URL that a host must not have. -/
def isDelimiter (c : Char) : Bool := c = '@' || endsNetloc c || isUnsafe c

/-- The standard library's tables, and `urljoin`. Lower case makes no delimiter. -/
structure Library extends Ssrf.Library where
  urljoin : Url → List Char → Option Url
  lower_mem : ∀ text : List Char, ∀ c ∈ lower text, isDelimiter c = true → c ∈ text

structure CrawlScope where
  rootUrl : Url
  origin : Url
  host : List Char
  deriving DecidableEq

/-- `urlunsplit(("https", host, path, "", ""))` for a path with a slash at its head; where the
host is empty, no request passes the guard. -/
def urlunsplit (host path : List Char) : Url := "https://".toList ++ (host ++ path)

theorem urlunsplit_eq (host path : List Char) :
    urlunsplit host path = ("https://".toList ++ host) ++ path :=
  (List.append_assoc ..).symm

/-- `text.rstrip(".")` -/
def rstripDots (text : List Char) : List Char := text.rdropWhile (· = '.')

/-- `path or "/"` -/
def orSlash (path : List Char) : List Char := if path = [] then ['/'] else path

/-- `parsed.hostname`, as a text that is empty for `None`. -/
def hostnameOf (lib : Library) (parsed : SplitResult) : List Char :=
  (parsed.hostname lib.lower).getD []

/-- `parsed.scheme != "https" or not parsed.hostname` -/
def isForeign (lib : Library) (parsed : SplitResult) : Bool :=
  parsed.scheme ≠ "https".toList || hostnameOf lib parsed = []

def hasCredentials (parsed : SplitResult) : Bool :=
  parsed.username.getD [] ≠ [] || parsed.password.getD [] ≠ []

/-- `port not in {None, 443}` -/
def isOtherPort (port : Option Nat) : Bool := port ≠ none && port ≠ some 443

/-- `parsed.hostname.lower().rstrip(".")` -/
def hostOf (lib : Library) (parsed : SplitResult) : List Char :=
  rstripDots (lib.lower (hostnameOf lib parsed))

/-- `normalize_root_url`; `none` is `ValueError`. -/
def normalizeRootUrl (lib : Library) (value : Url) : Option CrawlScope :=
  match urlsplit lib.netlocValid value with
  | none => none
  | some parsed =>
    if isForeign lib parsed then none
    else if hasCredentials parsed ∨ parsed.query ≠ [] ∨ parsed.fragment ≠ [] then none
    else
      match parsed.port with
      | none => none
      | some port =>
        if isOtherPort port then none
        else
          some
            { rootUrl := urlunsplit (hostOf lib parsed) (orSlash parsed.path)
              origin := "https://".toList ++ hostOf lib parsed
              host := hostOf lib parsed }

/-- `re.sub(r"/{2,}", "/", path)` -/
def collapseSlashes : List Char → List Char
  | [] => []
  | [c] => [c]
  | c :: d :: rest =>
    if c = '/' ∧ d = '/' then collapseSlashes (d :: rest) else c :: collapseSlashes (d :: rest)

/-- `normalize_same_origin_url` -/
def normalizeSameOriginUrl (lib : Library) (scope : CrawlScope) (value : Url) :
    Option (Option Url) :=
  match urlsplit lib.netlocValid value with
  | none => none
  | some parsed =>
    if isForeign lib parsed then some none
    else if hasCredentials parsed then some none
    else
      match parsed.port with
      | none => none
      | some port =>
        if isOtherPort port then some none
        else if hostOf lib parsed ≠ scope.host then some none
        else if parsed.query ≠ [] then some none
        else some (some (urlunsplit scope.host (collapseSlashes (orSlash parsed.path))))

/-! ## robots.txt -/

/-- The characters at which `str.splitlines` splits. -/
def isLineBreak (c : Char) : Bool :=
  let n := c.toNat
  (10 ≤ n && n ≤ 13) || (28 ≤ n && n ≤ 30) || n == 0x85 || n == 0x2028 || n == 0x2029

/-- `splitlines` behind `line`, which is kept in reverse. -/
def splitLinesFrom (line : List Char) : List Char → List (List Char)
  | [] => if line = [] then [] else [line.reverse]
  | '\r' :: '\n' :: rest => line.reverse :: splitLinesFrom [] rest
  | c :: rest =>
    if isLineBreak c then line.reverse :: splitLinesFrom [] rest
    else splitLinesFrom (c :: line) rest

/-- A line `key: value` of `robots.txt`. -/
structure Directive where
  /-- `normalized_key` -/
  key : List Char
  value : List Char
  deriving DecidableEq

/-- The directive of a line, if it has one. -/
def directive (lib : Library) (rawLine : List Char) : Option Directive :=
  let line := stripBy isSpace (cutAt '#' rawLine).1
  if line = [] ∨ ':' ∉ line then none
  else some ⟨lib.lower (stripBy isSpace (cutAt ':' line).1), stripBy isSpace (cutAt ':' line).2⟩

def directives (lib : Library) (text : List Char) : List Directive :=
  (splitLinesFrom [] text).filterMap (directive lib)

/-- `value.lower() in {"*", "sitepanelbot"}` -/
def namesCrawler (lib : Library) (value : List Char) : Bool :=
  lib.lower value = "*".toList || lib.lower value = "sitepanelbot".toList

/-- The variables of the loop in `_robots_directives`. -/
structure Robots where
  applies : Bool
  disallowed : List (List Char)
  sitemapUrls : List Url

/-- One turn of the loop. -/
def Robots.read (lib : Library) (scope : CrawlScope) (r : Robots) (d : Directive) :
    Option Robots :=
  if d.key = "user-agent".toList then some { r with applies := namesCrawler lib d.value }
  else if d.key = "disallow".toList ∧ r.applies = true ∧ d.value ≠ [] then
    some { r with disallowed := r.disallowed ++ [d.value] }
  else if d.key = "sitemap".toList then
    (normalizeSameOriginUrl lib scope d.value).map
      (fun sitemap => { r with sitemapUrls := r.sitemapUrls ++ sitemap.toList })
  else some r

/-- `MAX_SITEMAPS` -/
def maxSitemaps : Nat := 25

/-- `MAX_SITEMAP_URLS` -/
def maxSitemapUrls : Nat := 5000

/-- `_robots_directives` -/
def robotsDirectives (lib : Library) (scope : CrawlScope) (text : List Char) :
    Option (List (List Char) × List Url) :=
  ((directives lib text).foldlM (Robots.read lib scope) ⟨false, [], []⟩).map
    (fun r => (r.disallowed, r.sitemapUrls.eraseDups.take maxSitemaps))

/-- A rule of `robots.txt` is met by the path. -/
def forbids (rules : List (List Char)) (path : List Char) : Bool :=
  rules.any (fun rule => rule ≠ [] && rule.isPrefixOf path)

/-- `_is_allowed_by_robots` -/
def isAllowedByRobots (lib : Library) (url : Url) (disallowed : List (List Char)) :
    Option Bool :=
  (urlsplit lib.netlocValid url).map (fun parsed => !forbids disallowed (orSlash parsed.path))

/-! ## Sitemaps and pages -/

/-- The loop of `_sitemap_urls` over the texts of the `loc` nodes. -/
def collectLocs (lib : Library) (scope : CrawlScope) : List Url → List (List Char) →
    Option (List Url)
  | urls, [] => some urls
  | urls, text :: rest =>
    if text = [] then collectLocs lib scope urls rest
    else
      match normalizeSameOriginUrl lib scope (stripBy isSpace text) with
      | none => none
      | some normalized =>
        let urls := urls ++ normalized.toList
        if maxSitemapUrls ≤ urls.length then some urls else collectLocs lib scope urls rest

/-- `_sitemap_urls`; `none` in place of the `loc` nodes is a text that is no XML. -/
def sitemapUrls (lib : Library) (scope : CrawlScope) (locs : Option (List (List Char))) :
    Option (List Url) :=
  match locs with
  | none => some []
  | some locs => (collectLocs lib scope [] locs).map List.eraseDups

/-- What the parser of pages leaves for the crawl: the `href`s of the links and of the canonical
link, whether reading the other signals raises, and whether they can be stored as JSON. -/
structure Html where
  links : List (List Char)
  canonicalUrl : Option (List Char)
  signalsRaise : Bool
  signalsStorable : Bool

/-- `normalize_same_origin_url(urljoin(page_url, href), scope)` -/
def resolveLink (lib : Library) (scope : CrawlScope) (pageUrl : Url) (href : List Char) :
    Option (Option Url) :=
  (lib.urljoin pageUrl href).bind (normalizeSameOriginUrl lib scope)

/-- One turn of the loop over the links of a page. -/
def addLink (lib : Library) (scope : CrawlScope) (pageUrl : Url) (links : List Url)
    (href : List Char) : Option (List Url) :=
  (resolveLink lib scope pageUrl href).map (fun normalized =>
    match normalized with
    | some url => if url ∈ links then links else links ++ [url]
    | none => links)

/-- `extract_page_signals`, the canonical URL and the links. -/
def extractPageSignals (lib : Library) (scope : CrawlScope) (pageUrl : Url) (html : Html) :
    Option (Option Url × List Url) :=
  if html.signalsRaise then none
  else
    match (html.links.take 5000).foldlM (addLink lib scope pageUrl) [] with
    | none => none
    | some links =>
      match html.canonicalUrl with
      | none => some (none, links)
      | some href =>
        (resolveLink lib scope pageUrl href).map (fun canonical => (canonical, links))

/-! ## What the normalisers return -/

variable {c : Char} {path text : List Char} {r : SplitResult} {lib : Library} {value : Url}
  {scope : CrawlScope}

/-- The host of a scope has no delimiter in it. -/
def CrawlScope.Plain (scope : CrawlScope) : Prop :=
  scope.origin = "https://".toList ++ scope.host ∧ ∀ c ∈ scope.host, isDelimiter c = false

/-- A path of a URL: a slash, and behind it neither a query nor a fragment. -/
def IsUrlPath (path : List Char) : Prop :=
  path.head? = some '/' ∧ ∀ c ∈ path, c ≠ '?' ∧ c ≠ '#' ∧ isUnsafe c = false

/-- A URL of the scope: its origin, followed by a path. -/
def CrawlScope.Holds (scope : CrawlScope) (url : Url) : Prop :=
  ∃ path, url = scope.origin ++ path ∧ IsUrlPath path

theorem mem_collapseSlashes : ∀ {path : List Char},
    c ∈ collapseSlashes path → c ∈ path
  | [], h => h
  | [_], h => h
  | c' :: d :: rest, h => by
    unfold collapseSlashes at h
    split at h
    · exact List.mem_cons_of_mem _ (mem_collapseSlashes h)
    rcases List.mem_cons.mp h with rfl | h
    · exact List.mem_cons_self ..
    · exact List.mem_cons_of_mem _ (mem_collapseSlashes h)

theorem head_collapseSlashes : ∀ path : List Char,
    (collapseSlashes path).head? = path.head?
  | [] | [_] => rfl
  | c :: d :: rest => by
    unfold collapseSlashes
    split
    · next h =>
      rw [head_collapseSlashes (d :: rest), List.head?_cons, List.head?_cons, h.1, h.2]
    · rfl

theorem IsUrlPath.collapseSlashes (h : IsUrlPath path) : IsUrlPath (collapseSlashes path) :=
  ⟨(head_collapseSlashes path).trans h.1, fun c hc => h.2 c (mem_collapseSlashes hc)⟩

/-- The path of a URL that has a network location. -/
theorem isUrlPath_orSlash {netlocValid : List Char → Bool} (h : urlsplit netlocValid text = some r)
    (hne : r.netloc ≠ []) : IsUrlPath (orSlash r.path) := by
  obtain ⟨_, _, hpath, hhead⟩ := urlsplit_parts h
  unfold orSlash
  split
  · refine ⟨rfl, fun c hc => ?_⟩
    rw [List.mem_singleton.mp hc]
    decide
  · next hpath' => exact ⟨(hhead hne).resolve_left hpath', hpath⟩

theorem notMem_splitUserinfo (netloc : List Char) : '@' ∉ (splitUserinfo netloc).2 := by
  unfold splitUserinfo
  simp only [span_snd, span_fst]
  split
  · next h =>
    intro hat
    have hall := List.dropWhile_eq_nil_iff.mp h '@' (List.mem_reverse.mpr hat)
    exact absurd hall (by decide)
  · next h =>
    intro hat
    have himp := List.mem_takeWhile_imp (List.mem_reverse.mp hat)
    exact absurd himp (by decide)

theorem mem_of_mem_splitUserinfo {netloc : List Char} (h : c ∈ (splitUserinfo netloc).2) :
    c ∈ netloc := by
  unfold splitUserinfo at h
  simp only [span_snd, span_fst] at h
  split at h
  · exact h
  · exact List.mem_reverse.mp (List.takeWhile_subset _ (List.mem_reverse.mp h))

theorem mem_of_mem_cutAt_snd {sep : Char} (h : c ∈ (cutAt sep text).2) : c ∈ text := by
  rw [cutAt, span_snd] at h
  exact List.dropWhile_subset _ (List.mem_of_mem_tail h)

/-- The host that is read from a network location is part of what follows the credentials. -/
theorem mem_hostinfo (h : c ∈ r.hostinfo.1) : c ∈ (splitUserinfo r.netloc).2 := by
  unfold SplitResult.hostinfo at h
  dsimp only at h
  split at h
  · exact mem_of_mem_cutAt_snd (mem_of_mem_cutAt h)
  · exact mem_of_mem_cutAt h

/-- A delimiter of a host in lower case is one of the host as it is written. -/
theorem hostinfo_of_mem_hostname (h : c ∈ hostnameOf lib r) (hc : isDelimiter c = true) :
    c ∈ r.hostinfo.1 := by
  unfold hostnameOf SplitResult.hostname at h
  dsimp only at h
  split at h
  · cases h
  rw [Option.getD_some, List.mem_append] at h
  rcases h with h | h
  · have hmem := lib.lower_mem _ c h hc
    rw [span_fst] at hmem
    exact List.takeWhile_subset _ hmem
  · rw [span_snd] at h
    exact List.dropWhile_subset _ h

theorem netloc_ne_nil (h : isForeign lib r = false) : r.netloc ≠ [] := by
  intro hnil
  have hhost : hostnameOf lib r = [] := by
    unfold hostnameOf SplitResult.hostname SplitResult.hostinfo
    rw [hnil]
    rfl
  simp only [isForeign, hhost, decide_true, Bool.or_true] at h
  cases h

/-- The host of a URL, in lower case and without final dots, has no delimiter. -/
theorem hostOf_plain (h : urlsplit lib.netlocValid text = some r) :
    ∀ c ∈ hostOf lib r, isDelimiter c = false := by
  intro c hc
  by_contra hd
  rw [Bool.not_eq_false] at hd
  have hlower : c ∈ lib.lower (hostnameOf lib r) :=
    List.mem_reverse.mp (List.dropWhile_subset _ (List.mem_reverse.mp hc))
  have hinfo := mem_hostinfo (hostinfo_of_mem_hostname (lib.lower_mem _ c hlower hd) hd)
  have hnetloc := (urlsplit_parts h).2.1 c (mem_of_mem_splitUserinfo hinfo)
  simp only [isDelimiter, hnetloc.1, hnetloc.2, Bool.or_false, decide_eq_true_eq] at hd
  subst hd
  exact notMem_splitUserinfo _ hinfo

/-- **The root of a crawl is in its scope, and the host of the scope is plain.** -/
theorem normalizeRootUrl_scope (h : normalizeRootUrl lib value = some scope) :
    scope.Plain ∧ scope.Holds scope.rootUrl := by
  unfold normalizeRootUrl at h
  split at h
  · cases h
  next parsed hparsed =>
    split at h
    · cases h
    next hforeign =>
      split at h
      · cases h
      split at h
      · cases h
      split at h
      · cases h
      obtain rfl := Option.some.inj h
      rw [Bool.not_eq_true] at hforeign
      exact ⟨⟨rfl, hostOf_plain hparsed⟩, orSlash parsed.path, urlunsplit_eq _ _,
        isUrlPath_orSlash hparsed (netloc_ne_nil hforeign)⟩

/-- What an accepted URL is. -/
structure Accepted (lib : Library) (scope : CrawlScope) (parsed : SplitResult) : Prop where
  secure : isForeign lib parsed = false
  credentials : hasCredentials parsed = false
  port : ∃ port, parsed.port = some port ∧ isOtherPort port = false
  host : hostOf lib parsed = scope.host

theorem normalizeSameOriginUrl_eq_some {url : Url} :
    normalizeSameOriginUrl lib scope value = some (some url) ↔
      ∃ parsed, urlsplit lib.netlocValid value = some parsed ∧ Accepted lib scope parsed ∧
        parsed.query = [] ∧
        url = urlunsplit scope.host (collapseSlashes (orSlash parsed.path)) := by
  unfold normalizeSameOriginUrl
  constructor
  · intro h
    split at h
    · cases h
    next parsed hparsed =>
      split at h
      · cases h
      next hforeign =>
        split at h
        · cases h
        next hcred =>
          split at h
          · cases h
          next port hport =>
            split at h
            · cases h
            next hother =>
              split at h
              · cases h
              next hhost =>
                split at h
                · cases h
                next hquery =>
                  obtain rfl := Option.some.inj (Option.some.inj h)
                  rw [Bool.not_eq_true] at hforeign hcred hother
                  exact ⟨parsed, hparsed, ⟨hforeign, hcred, ⟨port, hport, hother⟩,
                    not_not.mp hhost⟩, not_not.mp hquery, rfl⟩
  · rintro ⟨parsed, hparsed, hacc, hquery, rfl⟩
    obtain ⟨port, hport, hother⟩ := hacc.port
    simp only [hparsed, hacc.secure, hacc.credentials, hport, hother, hacc.host, hquery,
      Bool.false_eq_true, if_false, ne_eq, not_true_eq_false]

/-- A URL of the scope is split into the host of the scope and its path. -/
theorem CrawlScope.Plain.urlsplit_eq (hplain : scope.Plain) (hpath : IsUrlPath path) :
    urlsplit lib.netlocValid (scope.origin ++ path)
      = if lib.netlocValid scope.host then some ⟨"https".toList, scope.host, path, [], []⟩
        else none := by
  rw [hplain.1, ← urlunsplit_eq]
  refine urlsplit_https (fun c hc => ?_) hpath.2 hpath.1
  have hd := hplain.2 c hc
  simp only [isDelimiter, Bool.or_eq_false_iff] at hd
  exact ⟨hd.1.2, hd.2⟩

end MegaPanel.Crawl

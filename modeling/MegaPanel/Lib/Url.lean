import Mathlib.Data.List.TakeWhile
import MegaPanel.Lib.Chars

set_option autoImplicit false

/-! # Splitting URLs

`urllib.parse.urlsplit` on code points, with the parts of the network location. The two checks of
the network location that need tables (`_check_bracketed_netloc`, `_checknetloc`) are one
parameter, `netlocValid`; what they reject raises `ValueError`.
-/

namespace MegaPanel.Lib.Url

/-- `SplitResult` -/
structure SplitResult where
  scheme : List Char
  netloc : List Char
  path : List Char
  query : List Char
  fragment : List Char
  deriving DecidableEq

/-- `_WHATWG_C0_CONTROL_OR_SPACE` -/
def isControlOrSpace (c : Char) : Bool := c.toNat ≤ 0x20

/-- `_UNSAFE_URL_BYTES_TO_REMOVE` -/
def isUnsafe (c : Char) : Bool := c = '\t' || c = '\r' || c = '\n'

def isAsciiAlpha (c : Char) : Bool := ('a' ≤ c && c ≤ 'z') || ('A' ≤ c && c ≤ 'Z')

def isAsciiDigit (c : Char) : Bool := '0' ≤ c && c ≤ '9'

/-- `scheme_chars` -/
def isSchemeChar (c : Char) : Bool :=
  isAsciiAlpha c || isAsciiDigit c || c = '+' || c = '-' || c = '.'

/-- `text.split(sep, 1)`, or the text alone when the separator is not in it. -/
def cutAt (sep : Char) (text : List Char) : List Char × List Char :=
  ((text.span (· ≠ sep)).1, (text.span (· ≠ sep)).2.tail)

/-- The scheme in lower case, and what follows its colon. -/
def splitScheme (url : List Char) : List Char × List Char :=
  let parts := url.span (· ≠ ':')
  if parts.2 ≠ [] ∧ (parts.1.head?.any isAsciiAlpha) = true ∧ parts.1.all isSchemeChar = true then
    (parts.1.map Char.toLower, parts.2.tail)
  else ([], url)

/-- `_splitnetloc` behind the two slashes -/
def splitNetloc (url : List Char) : List Char × List Char :=
  match url with
  | '/' :: '/' :: rest => rest.span (fun c => c ≠ '/' && c ≠ '?' && c ≠ '#')
  | _ => ([], url)

/-- `urlsplit`; `none` is `ValueError`. -/
def urlsplit (netlocValid : List Char → Bool) (text : List Char) : Option SplitResult :=
  let url := (text.dropWhile isControlOrSpace).filter (fun c => !isUnsafe c)
  let scheme := splitScheme url
  let netloc := splitNetloc scheme.2
  let fragment := cutAt '#' netloc.2
  let query := cutAt '?' fragment.1
  if netlocValid netloc.1 then
    some
      { scheme := scheme.1
        netloc := netloc.1
        path := query.1
        query := query.2
        fragment := fragment.2 }
  else none

/-! ## The parts of a network location -/

/-- `text.rpartition("@")`: what stands before the last `@`, if there is one, and what follows. -/
def splitUserinfo (netloc : List Char) : Option (List Char) × List Char :=
  let parts := netloc.reverse.span (· ≠ '@')
  match parts.2 with
  | [] => (none, netloc)
  | _ :: before => (some before.reverse, parts.1.reverse)

def SplitResult.username (r : SplitResult) : Option (List Char) :=
  (splitUserinfo r.netloc).1.map (fun userinfo => (cutAt ':' userinfo).1)

def SplitResult.password (r : SplitResult) : Option (List Char) :=
  (splitUserinfo r.netloc).1.bind (fun userinfo =>
    if ':' ∈ userinfo then some (cutAt ':' userinfo).2 else none)

/-- `_hostinfo`: the host as it is written, and the text of the port. -/
def SplitResult.hostinfo (r : SplitResult) : List Char × List Char :=
  let hostinfo := (splitUserinfo r.netloc).2
  if '[' ∈ hostinfo then
    let bracketed := cutAt ']' (cutAt '[' hostinfo).2
    (bracketed.1, (cutAt ':' bracketed.2).2)
  else cutAt ':' hostinfo

/-- `hostname`, with `str.lower` as a parameter; a zone keeps its case. -/
def SplitResult.hostname (lower : List Char → List Char) (r : SplitResult) : Option (List Char) :=
  let host := r.hostinfo.1
  if host = [] then none
  else
    let parts := host.span (· ≠ '%')
    some (lower parts.1 ++ parts.2)

/-- `port`; the outer `none` is `ValueError`. -/
def SplitResult.port (r : SplitResult) : Option (Option Nat) :=
  let text := r.hostinfo.2
  if text = [] then some none
  else if text.all isAsciiDigit then
    let port := text.foldl (fun n c => n * 10 + (c.toNat - 48)) 0
    if port ≤ 65535 then some (some port) else none
  else none

/-! ## What a split URL consists of -/

variable {sep c : Char} {text : List Char}

theorem span_fst (p : Char → Bool) (text : List Char) : (text.span p).1 = text.takeWhile p := by
  rw [List.span_eq_takeWhile_dropWhile]

theorem span_snd (p : Char → Bool) (text : List Char) : (text.span p).2 = text.dropWhile p := by
  rw [List.span_eq_takeWhile_dropWhile]

theorem notMem_cutAt (sep : Char) (text : List Char) : sep ∉ (cutAt sep text).1 := by
  intro h
  rw [cutAt, span_fst] at h
  simpa using List.mem_takeWhile_imp h

theorem mem_of_mem_cutAt (h : c ∈ (cutAt sep text).1) : c ∈ text := by
  rw [cutAt, span_fst] at h
  exact List.takeWhile_subset _ h

theorem cutAt_of_notMem (h : sep ∉ text) : cutAt sep text = (text, []) := by
  have hall : ∀ c ∈ text, (decide (c ≠ sep)) = true := fun c hc =>
    decide_eq_true (fun heq => h (heq ▸ hc))
  rw [cutAt, span_fst, span_snd, List.takeWhile_eq_self_iff.mpr hall,
    List.dropWhile_eq_nil_iff.mpr hall, List.tail_nil]

/-- The characters that end a network location. -/
def endsNetloc (c : Char) : Bool := c = '/' || c = '?' || c = '#'

theorem not_endsNetloc (c : Char) : (c ≠ '/' && c ≠ '?' && c ≠ '#') = !endsNetloc c := by
  simp [endsNetloc, Bool.and_assoc]

/-- What `_splitnetloc` reads: a network location without its ends, then one of the ends. -/
theorem splitNetloc_parts (url : List Char) :
    (∀ c ∈ (splitNetloc url).1, endsNetloc c = false) ∧
      (∀ c ∈ (splitNetloc url).1, c ∈ url) ∧ (∀ c ∈ (splitNetloc url).2, c ∈ url) ∧
      ((splitNetloc url).1 ≠ [] →
        ∀ c ∈ (splitNetloc url).2.head?, endsNetloc c = true) := by
  unfold splitNetloc
  split
  · next rest =>
    simp only [not_endsNetloc, span_fst, span_snd]
    refine ⟨fun c hc => ?_, fun c hc => ?_, fun c hc => ?_, fun _ c hc => ?_⟩
    · simpa using List.mem_takeWhile_imp hc
    · simp [List.takeWhile_subset _ hc]
    · simp [List.dropWhile_subset _ hc]
    · have hhead := List.head?_dropWhile_not (fun c => !endsNetloc c) rest
      rw [Option.mem_def.mp hc] at hhead
      simpa using hhead
  · exact ⟨by simp, by simp, by simp, by simp⟩

theorem mem_of_mem_splitScheme {url : List Char} (h : c ∈ (splitScheme url).2) : c ∈ url := by
  unfold splitScheme at h
  dsimp only at h
  split at h
  · rw [span_snd] at h
    exact List.dropWhile_subset _ (List.mem_of_mem_tail h)
  · exact h

/-- **What the parts of a URL are.** None of their characters is one that `urlsplit` removes, the
network location has no end in it, and behind a network location the path is empty or starts
with a slash. -/
theorem urlsplit_parts {netlocValid : List Char → Bool} {r : SplitResult}
    (h : urlsplit netlocValid text = some r) :
    netlocValid r.netloc = true ∧ (∀ c ∈ r.netloc, endsNetloc c = false ∧ isUnsafe c = false) ∧
      (∀ c ∈ r.path, c ≠ '?' ∧ c ≠ '#' ∧ isUnsafe c = false) ∧
      (r.netloc ≠ [] → r.path = [] ∨ r.path.head? = some '/') := by
  unfold urlsplit at h
  dsimp only at h
  split at h
  case isFalse => cases h
  case isTrue hvalid =>
    cases h
    have hsafe : ∀ {c}, c ∈ (splitScheme ((text.dropWhile isControlOrSpace).filter
        (fun c => !isUnsafe c))).2 → isUnsafe c = false := by
      intro c hc
      simpa using List.of_mem_filter (mem_of_mem_splitScheme hc)
    generalize (splitScheme ((text.dropWhile isControlOrSpace).filter
        (fun c => !isUnsafe c))).2 = url at hvalid hsafe ⊢
    obtain ⟨hnetloc, hof, hrest, hhead⟩ := splitNetloc_parts url
    refine ⟨hvalid, fun c hc => ⟨hnetloc c hc, hsafe (hof c hc)⟩, fun c hc => ⟨?_, ?_, ?_⟩,
      fun hne => ?_⟩
    · rintro rfl
      exact notMem_cutAt '?' _ hc
    · rintro rfl
      exact notMem_cutAt '#' _ (mem_of_mem_cutAt hc)
    · exact hsafe (hrest c (mem_of_mem_cutAt (mem_of_mem_cutAt hc)))
    · have hfirst := hhead hne
      cases hsnd : (splitNetloc url).2 with
      | nil => exact .inl rfl
      | cons c rest =>
        rw [hsnd] at hfirst
        have hc : endsNetloc c = true := hfirst c rfl
        simp only [endsNetloc, Bool.or_eq_true, decide_eq_true_eq] at hc
        rcases hc with (rfl | rfl) | rfl
        · refine .inr ?_
          simp [cutAt]
        · refine .inl ?_
          simp [cutAt]
        · refine .inl ?_
          simp [cutAt]

/-- **A URL written from its parts is split into them.** -/
theorem urlsplit_https {netlocValid : List Char → Bool} {netloc path : List Char}
    (hnetloc : ∀ c ∈ netloc, endsNetloc c = false ∧ isUnsafe c = false)
    (hpath : ∀ c ∈ path, c ≠ '?' ∧ c ≠ '#' ∧ isUnsafe c = false)
    (hhead : path.head? = some '/') :
    urlsplit netlocValid ("https://".toList ++ (netloc ++ path))
      = if netlocValid netloc then some ⟨"https".toList, netloc, path, [], []⟩ else none := by
  have hsafe : ∀ c ∈ netloc ++ path, isUnsafe c = false := fun c hc =>
    (List.mem_append.mp hc).elim (fun h => (hnetloc c h).2) (fun h => (hpath c h).2.2)
  have hfilter : (netloc ++ path).filter (fun c => !isUnsafe c) = netloc ++ path :=
    List.filter_eq_self.mpr (fun c hc => by simp [hsafe c hc])
  have hurl : (("https://".toList ++ (netloc ++ path)).dropWhile isControlOrSpace).filter
      (fun c => !isUnsafe c) = "https://".toList ++ (netloc ++ path) := by
    have hdrop : ("https://".toList ++ (netloc ++ path)).dropWhile isControlOrSpace
        = "https://".toList ++ (netloc ++ path) := rfl
    rw [hdrop, List.filter_append, hfilter]
    rfl
  have hscheme : splitScheme ("https://".toList ++ (netloc ++ path))
      = ("https".toList, '/' :: '/' :: (netloc ++ path)) := rfl
  have hsplit : splitNetloc ('/' :: '/' :: (netloc ++ path)) = (netloc, path) := by
    simp only [splitNetloc, not_endsNetloc, List.span_eq_takeWhile_dropWhile]
    have htake : ∀ c ∈ netloc, (!endsNetloc c) = true := fun c hc => by simp [(hnetloc c hc).1]
    cases path with
    | nil => cases hhead
    | cons c rest =>
      obtain rfl : c = '/' := Option.some.inj hhead
      rw [List.takeWhile_append_of_pos htake, List.dropWhile_append_of_pos htake]
      simp [endsNetloc]
  have hfragment : cutAt '#' path = (path, []) :=
    cutAt_of_notMem (fun hc => (hpath _ hc).2.1 rfl)
  have hquery : cutAt '?' path = (path, []) := cutAt_of_notMem (fun hc => (hpath _ hc).1 rfl)
  unfold urlsplit
  simp only [hurl, hscheme, hsplit, hfragment, hquery]

end MegaPanel.Lib.Url

import Mathlib.Data.String.Basic
import MegaPanel.Lib.Text
import MegaPanel.Release.Retention

set_option autoImplicit false

/-! # Pruning a site directory

`prune_site_releases` over whatever can be in the directory of a site: below `releases/` there
are files, directories and symbolic links at arbitrary paths, with or without markers, and
`current` and `previous` lead anywhere. `prune_safe` says which entries it can delete and what it
returns. How sweeps, builds and requests interleave is the subject of `Release.Retention`.

`shutil.rmtree` may fail part of the way through. Which entries it has then left is an input
(`Removal`), as is the path that a link resolves to.
-/

namespace MegaPanel.Release.Pruning

open MegaPanel.Lib

/-! ## The directory of a site -/

/-- What is at a path: the text of a file is `none` where it cannot be read as UTF-8. -/
inductive Kind
  | file (text : Option String)
  | symlink
  | dir (mtime : Time)
  deriving DecidableEq

/-- What is below `releases/`, by path. -/
abbrev Files := Table (List String) Kind

/-- What `current` or `previous` is, and for a link what `resolve(strict=True)` makes of it: a
path below `releases/`, a path elsewhere, an `OSError`, or the `RuntimeError` of a loop. -/
inductive Link
  | notLink
  | inside (path : List String)
  | outside
  | unresolved
  | loop
  deriving DecidableEq

/-- The directory of a site; `releases` is `none` where it is missing, a link, no directory or
not readable. -/
structure SiteRoot where
  releases : Option Files
  current : Link
  previous : Link

/-- `_release_hash(releases_root, release)` -/
def releaseHash (releases : Files) (release : List String) : Option Hash :=
  match release.getLast?, releases.get release with
  | some name, some (.dir _) =>
    if Sha256.isSha256 name then
      match releases.get (release ++ ["BUILD_HASH"]) with
      | some (.file (some text)) => if Text.strip text = name then some name else none
      | _ => none
    else none
  | _, _ => none

/-- `_linked_release_hash`; `none` is an exception. -/
def linkedReleaseHash (releases : Files) : Link → Option (Option Hash)
  | .notLink => some none
  | .inside target => some (releaseHash releases target)
  | .outside => some none
  | .unresolved => some none
  | .loop => none

/-! ## Pruning -/

/-- The release directories with their modification times. -/
def listed (releases : Files) : List (Hash × Time) :=
  releases.rows.filterMap (fun row =>
    match row with
    | ([name], .dir mtime) => (releaseHash releases [name]).map (fun hash => (hash, mtime))
    | _ => none)

/-- `a` stands before `b` in the sorted list: it is the newer one, or the hash decides. -/
def newerEq (a b : Hash × Time) : Prop := b.2 < a.2 ∨ (b.2 = a.2 ∧ b.1 ≤ a.1)

instance : DecidableRel newerEq := fun a b =>
  inferInstanceAs (Decidable (b.2 < a.2 ∨ (b.2 = a.2 ∧ b.1 ≤ a.1)))

/-- `releases.sort(key=…, reverse=True)` -/
def newestFirst (releases : Files) : List (Hash × Time) := (listed releases).insertionSort newerEq

/-- There is a symbolic link in the directory of a release. -/
def hasLink (releases : Files) (hash : Hash) : Bool :=
  releases.rows.any (fun row =>
    match row with
    | (name :: _ :: _, .symlink) => name = hash
    | _ => false)

/-- The outcome of `shutil.rmtree` on a release: `none` if all of it is deleted, else the paths
that are left beside the directory itself. -/
abbrev Removal := Hash → Option (List String → Bool)

/-- Whether it deletes what is at a path. -/
def removes (left : Option (List String → Bool)) (hash : Hash) (path : List String) : Bool :=
  path.head? = some hash &&
    match left with
    | none => true
    | some left => path ≠ [hash] && !left path

/-- `shutil.rmtree(release)` -/
def rmtree (left : Option (List String → Bool)) (releases : Files) (hash : Hash) : Files :=
  releases.deleteWhere (removes left hash)

/-- The loop of `prune_site_releases`: what is on disk, and `deleted`. -/
def pruneLoop (removal : Removal) (kept : List Hash) (now : Time) :
    List (Hash × Time) → Files → Nat → Files × Nat
  | [], releases, deleted => (releases, deleted)
  | (hash, modifiedAt) :: rest, releases, deleted =>
    if hash ∈ kept ∨ now ≤ modifiedAt + days retentionDays then
      pruneLoop removal kept now rest releases deleted
    else if releaseHash releases [hash] ≠ some hash then
      pruneLoop removal kept now rest releases deleted
    else if hasLink releases hash then pruneLoop removal kept now rest releases deleted
    else
      match removal hash with
      | none => pruneLoop removal kept now rest (rmtree none releases hash) (deleted + 1)
      | some left => pruneLoop removal kept now rest (rmtree (some left) releases hash) deleted

/-- `prune_site_releases`; `none` is an exception, raised before anything is deleted. -/
def pruneSiteReleases (removal : Removal) (site : SiteRoot) (protectedHashes : List Hash)
    (now : Time) : Option (SiteRoot × Nat) :=
  match site.releases with
  | none => some (site, 0)
  | some releases =>
    match linkedReleaseHash releases site.current, linkedReleaseHash releases site.previous with
    | some current, some previous =>
      let newest := newestFirst releases
      let kept := protectedHashes.filter Sha256.isSha256 ++ current.toList ++ previous.toList
        ++ (newest.take keepNewest).map Prod.fst
      let result := pruneLoop removal kept now newest releases 0
      some ({ site with releases := some result.1 }, result.2)
    | _, _ => none

/-! ## What may be deleted -/

variable {releases : Files} {hash : Hash} {mtime : Time}

/-- What is below `releases/`. -/
def SiteRoot.files (site : SiteRoot) : Files := site.releases.getD Table.empty

/-- A release that may be deleted. -/
structure Deletable (site : SiteRoot) (protectedHashes : List Hash) (now : Time) (hash : Hash)
    (modifiedAt : Time) : Prop where
  name : Sha256.isSha256 hash = true
  directory : site.files.get [hash] = some (.dir modifiedAt)
  marker : ∃ text, site.files.get [hash, "BUILD_HASH"] = some (.file (some text)) ∧
    Text.strip text = hash
  noLinks : ∀ name rest, site.files.get (hash :: name :: rest) ≠ some .symlink
  notProtected : hash ∉ protectedHashes
  notCurrent : site.current ≠ .inside [hash]
  notPrevious : site.previous ≠ .inside [hash]
  /-- There are enough releases that are newer, where the hash decides between equal times. -/
  newer : keepNewest ≤ ((listed site.files).filter
    (fun other => modifiedAt < other.2 ∨ (modifiedAt = other.2 ∧ hash < other.1))).length
  old : modifiedAt + days retentionDays < now

theorem releaseHash_eq_some {name : Hash} :
    releaseHash releases [name] = some hash ↔
      hash = name ∧ Sha256.isSha256 name = true ∧
        (∃ mtime, releases.get [name] = some (.dir mtime)) ∧
        ∃ text, releases.get [name, "BUILD_HASH"] = some (.file (some text)) ∧
          Text.strip text = name := by
  unfold releaseHash
  rw [List.getLast?_singleton, List.singleton_append]
  constructor
  · intro h
    split at h
    · next name' mtime hname hdir =>
      cases Option.some.inj hname
      split at h
      · next hsha =>
        split at h
        · next text hmarker =>
          split at h
          · next hstrip =>
            cases h
            exact ⟨rfl, hsha, ⟨mtime, hdir⟩, text, hmarker, hstrip⟩
          · cases h
        · cases h
      · cases h
    · cases h
  · rintro ⟨rfl, hsha, ⟨mtime, hdir⟩, text, hmarker, hstrip⟩
    rw [hdir]
    simp only [hsha, if_true, hmarker, hstrip]

theorem mem_listed :
    (hash, mtime) ∈ listed releases ↔
      releases.get [hash] = some (.dir mtime) ∧ releaseHash releases [hash] = some hash := by
  rw [listed, List.mem_filterMap]
  constructor
  · rintro ⟨⟨path, kind⟩, hrow, h⟩
    have hget := Table.mem_rows.mp hrow
    split at h
    · next name mtime' heq =>
      obtain ⟨rfl, rfl⟩ := Prod.mk.inj heq
      obtain ⟨hash', hhash, hpair⟩ := Option.map_eq_some_iff.mp h
      obtain ⟨rfl, rfl⟩ := Prod.mk.inj hpair
      have hname := (releaseHash_eq_some.mp hhash).1
      subst hname
      exact ⟨hget, hhash⟩
    · cases h
  · rintro ⟨hget, hhash⟩
    exact ⟨([hash], .dir mtime), Table.mem_rows.mpr hget, by simp only [hhash, Option.map_some]⟩

theorem hasLink_eq_true :
    hasLink releases hash = true ↔
      ∃ name rest, releases.get (hash :: name :: rest) = some .symlink := by
  rw [hasLink, List.any_eq_true]
  constructor
  · rintro ⟨⟨path, kind⟩, hrow, h⟩
    split at h
    · next name next rest heq =>
      obtain ⟨rfl, rfl⟩ := Prod.mk.inj heq
      cases of_decide_eq_true h
      exact ⟨next, rest, Table.mem_rows.mp hrow⟩
    · cases h
  · rintro ⟨name, rest, hget⟩
    exact ⟨(hash :: name :: rest, .symlink), Table.mem_rows.mpr hget, decide_eq_true rfl⟩

/-! ## The newest releases -/

theorem listed_nodup (releases : Files) : ((listed releases).map Prod.fst).Nodup := by
  have hkeys : (releases.rows.map Prod.fst).Nodup := by
    rw [Table.rows_keys]
    exact releases.nodup
  have hmap : (((listed releases).map Prod.fst).map (fun hash => [hash])).Sublist
      (releases.rows.map Prod.fst) := by
    rw [listed]
    induction releases.rows with
    | nil => exact List.Sublist.slnil
    | cons row rows ih =>
      rw [List.filterMap_cons]
      split
      · exact ih.cons _
      · next hash heq =>
        split at heq
        · next name mtime =>
          obtain ⟨hash', hhash, rfl⟩ := Option.map_eq_some_iff.mp heq
          obtain rfl := (releaseHash_eq_some.mp hhash).1
          exact ih.cons_cons _
        · cases heq
  exact (hkeys.sublist hmap).of_map

theorem newestFirst_perm (releases : Files) : (newestFirst releases).Perm (listed releases) :=
  List.perm_insertionSort _ _

theorem newestFirst_nodup (releases : Files) : ((newestFirst releases).map Prod.fst).Nodup :=
  ((newestFirst_perm releases).map Prod.fst).nodup_iff.mpr (listed_nodup releases)

theorem newestFirst_pairwise (releases : Files) : (newestFirst releases).Pairwise newerEq := by
  have : IsTrans (Hash × Time) newerEq := ⟨fun a b c hab hbc => by
    rcases hab with hab | ⟨hab, hab'⟩
    · rcases hbc with hbc | ⟨hbc, _⟩
      · exact .inl (hbc.trans hab)
      · exact .inl (hbc ▸ hab)
    · rcases hbc with hbc | ⟨hbc, hbc'⟩
      · exact .inl (hab ▸ hbc)
      · exact .inr ⟨hbc.trans hab, hbc'.trans hab'⟩⟩
  have : Std.Total newerEq := ⟨fun a b => by
    rcases lt_trichotomy a.2 b.2 with h | h | h
    · exact .inr (.inl h)
    · rcases le_total a.1 b.1 with h' | h'
      · exact .inr (.inr ⟨h, h'⟩)
      · exact .inl (.inr ⟨h.symm, h'⟩)
    · exact .inl (.inl h)⟩
  exact List.pairwise_insertionSort _ _

/-- A release that is not among the first `n` has at least `n` before it. -/
theorem le_length_newer {n : Nat} (hmem : (hash, mtime) ∈ newestFirst releases)
    (hnot : hash ∉ ((newestFirst releases).take n).map Prod.fst) :
    n ≤ ((listed releases).filter
      (fun other => mtime < other.2 ∨ (mtime = other.2 ∧ hash < other.1))).length := by
  have hsplit := List.take_append_drop n (newestFirst releases)
  have hin : (hash, mtime) ∈ (newestFirst releases).drop n := by
    rw [← hsplit, List.mem_append] at hmem
    exact hmem.resolve_left (fun h => hnot (List.mem_map_of_mem h))
  have hlength : ((newestFirst releases).take n).length = n := by
    rw [List.length_take, Nat.min_eq_left]
    by_contra hshort
    rw [List.drop_eq_nil_of_le (by omega)] at hin
    cases hin
  have hbefore : ∀ other ∈ (newestFirst releases).take n,
      mtime < other.2 ∨ (mtime = other.2 ∧ hash < other.1) := by
    intro other hother
    have hpair := newestFirst_pairwise releases
    rw [← hsplit, List.pairwise_append] at hpair
    rcases hpair.2.2 other hother _ hin with h | ⟨h, hle⟩
    · exact .inl h
    · refine .inr ⟨h, lt_of_le_of_ne hle (fun heq => hnot ?_)⟩
      exact heq ▸ List.mem_map_of_mem hother
  calc n = (((newestFirst releases).take n).filter
        (fun other => mtime < other.2 ∨ (mtime = other.2 ∧ hash < other.1))).length := by
        rw [List.filter_eq_self.mpr (fun other h => decide_eq_true (hbefore other h)), hlength]
    _ ≤ ((newestFirst releases).filter
        (fun other => mtime < other.2 ∨ (mtime = other.2 ∧ hash < other.1))).length :=
        ((List.take_sublist _ _).filter _).length_le
    _ = ((listed releases).filter
        (fun other => mtime < other.2 ∨ (mtime = other.2 ∧ hash < other.1))).length :=
        ((newestFirst_perm releases).filter _).length_eq

/-! ## The loop -/

variable {now : Time} {row : Hash × Time} {deleted : Nat} {result : Files × Nat}

/-- What the loop demands of a release before it deletes it. -/
structure Stale (kept : List Hash) (now : Time) (releases : Files) (row : Hash × Time) : Prop where
  notKept : row.1 ∉ kept
  old : row.2 + days retentionDays < now
  verified : releaseHash releases [row.1] = some row.1
  noLink : hasLink releases row.1 = false

/-- Only what is in the directory of the release matters. -/
theorem Stale.congr {kept : List Hash} {fs gs : Files} (h : Stale kept now fs row)
    (hsame : ∀ rest, gs.get (row.1 :: rest) = fs.get (row.1 :: rest)) : Stale kept now gs row where
  notKept := h.notKept
  old := h.old
  verified := by
    have hv := releaseHash_eq_some.mp h.verified
    rw [← hsame, ← hsame] at hv
    exact releaseHash_eq_some.mpr hv
  noLink := by
    have hfree := h.noLink
    rw [← Bool.not_eq_true, hasLink_eq_true] at hfree ⊢
    rintro ⟨name, rest, hget⟩
    exact hfree ⟨name, rest, hsame _ ▸ hget⟩

theorem get_rmtree_other {left : Option (List String → Bool)} {releases : Files} {hash : Hash}
    {path : List String} (h : path.head? ≠ some hash) :
    (rmtree left releases hash).get path = releases.get path := by
  have hfalse : removes left hash path = false := by
    unfold removes
    rw [decide_eq_false h, Bool.false_and]
  rw [rmtree, Table.get_deleteWhere, hfalse]
  rfl

theorem get_rmtree_self (left : Option (List String → Bool)) (releases : Files) (hash : Hash) :
    (rmtree left releases hash).get [hash]
      = match left with
        | none => none
        | some _ => releases.get [hash] := by
  rw [rmtree, Table.get_deleteWhere]
  cases left with
  | none => rw [if_pos]; simp [removes]
  | some left => rw [if_neg]; simp [removes]

/-- What is missing afterwards was deleted. -/
theorem get_rmtree (left : Option (List String → Bool)) (releases : Files) (hash : Hash)
    (path : List String) : (rmtree left releases hash).get path = releases.get path ∨
      ((rmtree left releases hash).get path = none ∧ ∃ rest, path = hash :: rest) := by
  by_cases hhead : path.head? = some hash
  · cases path with
    | nil => cases hhead
    | cons name rest =>
      cases hhead
      rw [rmtree, Table.get_deleteWhere]
      split
      · exact .inr ⟨rfl, rest, rfl⟩
      · exact .inl rfl
  · exact .inl (get_rmtree_other hhead)

/-- What a loop does: it deletes inside stale releases, and it counts those that are gone. -/
structure Pruned (kept : List Hash) (now : Time) (rows : List (Hash × Time)) (releases : Files)
    (deleted : Nat) (result : Files × Nat) : Prop where
  lost : ∀ path, result.1.get path = releases.get path ∨
    (result.1.get path = none ∧ ∃ row ∈ rows, Stale kept now releases row ∧
      ∃ rest, path = row.1 :: rest)
  counted : ∃ removed : List Hash, removed.Nodup ∧ result.2 = deleted + removed.length ∧
    removed ⊆ rows.map Prod.fst ∧
    ∀ hash, hash ∈ removed ↔
      (releases.get [hash]).isSome = true ∧ result.1.get [hash] = none

theorem Pruned.nil (kept : List Hash) (now : Time) (releases : Files) (deleted : Nat) :
    Pruned kept now [] releases deleted (releases, deleted) where
  lost _ := .inl rfl
  counted := ⟨[], List.nodup_nil, rfl, List.nil_subset _, fun hash => by
    cases releases.get [hash] <;> simp⟩

/-- A release that is passed over. -/
theorem Pruned.skip {kept : List Hash} {rows : List (Hash × Time)}
    (h : Pruned kept now rows releases deleted result) :
    Pruned kept now (row :: rows) releases deleted result where
  lost path := (h.lost path).imp_right
    (fun ⟨hnone, r, hr, hstale⟩ => ⟨hnone, r, List.mem_cons_of_mem row hr, hstale⟩)
  counted := by
    obtain ⟨removed, hnodup, hcount, hsubset, hremoved⟩ := h.counted
    exact ⟨removed, hnodup, hcount, List.Subset.trans hsubset (List.subset_cons_self _ _), hremoved⟩

/-- A release that `shutil.rmtree` is called on. -/
theorem Pruned.rmtree {kept : List Hash} {rows : List (Hash × Time)}
    {left : Option (List String → Bool)} (hstale : Stale kept now releases row)
    (hnew : row.1 ∉ rows.map Prod.fst)
    (h : Pruned kept now rows (Pruning.rmtree left releases row.1)
      (if left.isNone then deleted + 1 else deleted) result) :
    Pruned kept now (row :: rows) releases deleted result where
  lost path := by
    rcases h.lost path with hsame | ⟨hnone, r, hr, hstale', rest, rfl⟩
    · rcases get_rmtree left releases row.1 path with hkept | ⟨hnone, rest, rfl⟩
      · exact .inl (hsame.trans hkept)
      · exact .inr ⟨hsame.trans hnone, row, List.mem_cons_self, hstale, rest, rfl⟩
    · have hne : r.1 ≠ row.1 := fun heq => hnew (heq ▸ List.mem_map_of_mem hr)
      have hsame : ∀ rest', releases.get (r.1 :: rest')
          = (Pruning.rmtree left releases row.1).get (r.1 :: rest') := fun rest' =>
        (@get_rmtree_other _ _ _ (r.1 :: rest') (fun heq => hne (Option.some.inj heq))).symm
      exact .inr ⟨hnone, r, List.mem_cons_of_mem row hr, hstale'.congr hsame, rest, rfl⟩
  counted := by
    obtain ⟨removed, hnodup, hcount, hsubset, hremoved⟩ := h.counted
    obtain ⟨_, _, ⟨mtime, hdir⟩, _⟩ := releaseHash_eq_some.mp hstale.verified
    have hnot : row.1 ∉ removed := fun hmem => hnew (hsubset hmem)
    have hself := get_rmtree_self left releases row.1
    have hother : ∀ hash, hash ≠ row.1 →
        (Pruning.rmtree left releases row.1).get [hash] = releases.get [hash] :=
      fun hash hne => get_rmtree_other (fun heq => hne (Option.some.inj heq))
    cases left with
    | none =>
      have hgone : result.1.get [row.1] = none := by
        rcases h.lost [row.1] with hsame | ⟨hnone, _⟩
        · exact hsame.trans hself
        · exact hnone
      refine ⟨row.1 :: removed, List.nodup_cons.mpr ⟨hnot, hnodup⟩, ?_, ?_, fun hash => ?_⟩
      · rw [hcount, List.length_cons]
        simp only [Option.isNone_none, if_true]
        omega
      · exact List.cons_subset_cons _ hsubset
      · rw [List.mem_cons, hremoved]
        by_cases heq : hash = row.1
        · subst heq
          exact iff_of_true (.inl rfl) ⟨by rw [hdir]; rfl, hgone⟩
        · rw [hother hash heq, or_iff_right heq]
    | some left =>
      have hsubset := List.Subset.trans hsubset (List.subset_cons_self row.1 _)
      refine ⟨removed, hnodup, ?_, hsubset, fun hash => ?_⟩
      · rw [hcount]
        rfl
      · rw [hremoved]
        by_cases heq : hash = row.1
        · subst heq
          rw [hself]
        · rw [hother hash heq]

/-- **The loop**, by induction on the releases: no name occurs twice, so what has been deleted
before is no part of the release at hand. -/
theorem pruneLoop_pruned (removal : Removal) (kept : List Hash) (now : Time)
    (rows : List (Hash × Time)) (hnodup : (rows.map Prod.fst).Nodup) :
    ∀ (releases : Files) (deleted : Nat),
      Pruned kept now rows releases deleted (pruneLoop removal kept now rows releases deleted) := by
  induction rows with
  | nil => exact fun releases deleted => Pruned.nil kept now releases deleted
  | cons row rows ih =>
    intro releases deleted
    obtain ⟨hash, modifiedAt⟩ := row
    obtain ⟨hnew, hnodup⟩ := List.nodup_cons.mp hnodup
    rw [pruneLoop]
    split
    · exact (ih hnodup releases deleted).skip
    · next hkept =>
      split
      · exact (ih hnodup releases deleted).skip
      · next hverified =>
        split
        · exact (ih hnodup releases deleted).skip
        · next hlink =>
          have hstale : Stale kept now releases (hash, modifiedAt) :=
            ⟨fun hmem => hkept (.inl hmem), not_le.mp (fun hle => hkept (.inr hle)),
              not_not.mp hverified, Bool.eq_false_iff.mpr hlink⟩
          cases removal hash with
          | none => exact Pruned.rmtree hstale hnew (ih hnodup _ _)
          | some left => exact Pruned.rmtree hstale hnew (ih hnodup _ _)

/-! ## Safety -/

/-- A link that leads to a verified release protects it. -/
theorem linked_of_inside {link : Link} {linked : Option Hash}
    (hlinked : linkedReleaseHash releases link = some linked) (hinside : link = .inside [hash])
    (hverified : releaseHash releases [hash] = some hash) : hash ∈ linked.toList := by
  subst hinside
  rw [linkedReleaseHash, hverified, Option.some.injEq] at hlinked
  rw [← hlinked]
  exact List.mem_singleton.mpr rfl

/-- What the loop deletes from may be deleted. -/
theorem Stale.deletable {site : SiteRoot} {protectedHashes : List Hash}
    {current previous : Option Hash} (hfiles : site.releases = some releases)
    (hcurrent : linkedReleaseHash releases site.current = some current)
    (hprevious : linkedReleaseHash releases site.previous = some previous)
    (hrow : row ∈ newestFirst releases)
    (h : Stale (protectedHashes.filter Sha256.isSha256 ++ current.toList ++ previous.toList
      ++ ((newestFirst releases).take keepNewest).map Prod.fst) now releases row) :
    Deletable site protectedHashes now row.1 row.2 := by
  have hsite : site.files = releases := by rw [SiteRoot.files, hfiles, Option.getD_some]
  obtain ⟨_, hname, _, hmarker⟩ := releaseHash_eq_some.mp h.verified
  have hlisted := (newestFirst_perm releases).mem_iff.mp hrow
  have hkept := h.notKept
  simp only [List.mem_append, not_or] at hkept
  obtain ⟨⟨⟨hprotected, hcur⟩, hprev⟩, hnewest⟩ := hkept
  have hlinks := h.noLink
  rw [← Bool.not_eq_true, hasLink_eq_true] at hlinks
  exact
    { name := hname
      directory := by rw [hsite]; exact (mem_listed.mp hlisted).1
      marker := by rw [hsite]; exact hmarker
      noLinks := fun name rest hget => hlinks ⟨name, rest, by rw [← hsite]; exact hget⟩
      notProtected := fun hmem => hprotected (List.mem_filter.mpr ⟨hmem, hname⟩)
      notCurrent := fun hinside => hcur (linked_of_inside hcurrent hinside h.verified)
      notPrevious := fun hinside => hprev (linked_of_inside hprevious hinside h.verified)
      newer := by rw [hsite]; exact le_length_newer hrow hnewest
      old := h.old }

/-- **Pruning is safe**: what is missing afterwards was in the directory of a release that may be
deleted, and the number returned counts the releases that are gone. -/
theorem prune_safe {removal : Removal} {site site' : SiteRoot} {protectedHashes : List Hash}
    {now : Time} {n : Nat}
    (h : pruneSiteReleases removal site protectedHashes now = some (site', n)) :
    (site'.current = site.current ∧ site'.previous = site.previous) ∧
      (∀ path, site'.files.get path = site.files.get path ∨
        (site'.files.get path = none ∧ ∃ hash modifiedAt rest, path = hash :: rest ∧
          Deletable site protectedHashes now hash modifiedAt)) ∧
      ∃ removed : List Hash, removed.Nodup ∧ n = removed.length ∧
        ∀ hash, hash ∈ removed ↔
          (site.files.get [hash]).isSome = true ∧ site'.files.get [hash] = none := by
  unfold pruneSiteReleases at h
  cases hreleases : site.releases with
  | none =>
    rw [hreleases] at h
    cases h
    exact ⟨⟨rfl, rfl⟩, fun _ => .inl rfl, [], List.nodup_nil, rfl, fun hash => by
      simp [SiteRoot.files, hreleases]⟩
  | some releases =>
    rw [hreleases] at h
    dsimp only at h
    have hsite : site.files = releases := by rw [SiteRoot.files, hreleases, Option.getD_some]
    split at h
    · next current previous hcurrent hprevious =>
      cases h
      have hpruned := pruneLoop_pruned removal
        (protectedHashes.filter Sha256.isSha256 ++ current.toList ++ previous.toList
          ++ ((newestFirst releases).take keepNewest).map Prod.fst) now
        (newestFirst releases) (newestFirst_nodup releases) releases 0
      obtain ⟨removed, hnodup, hcount, _, hremoved⟩ := hpruned.counted
      refine ⟨⟨rfl, rfl⟩, fun path => ?_, removed, hnodup, ?_, fun hash => ?_⟩
      · rw [hsite]
        rcases hpruned.lost path with hsame | ⟨hnone, row, hrow, hstale, rest, rfl⟩
        · exact .inl hsame
        · exact .inr ⟨hnone, row.1, row.2, rest, rfl,
            hstale.deletable hreleases hcurrent hprevious hrow⟩
      · rw [hcount, Nat.zero_add]
      · rw [hsite]
        exact hremoved hash
    · cases h

/-- A release of that age in days, on day 200. -/
def addRelease (releases : Files) (hash : Hash) (age : Nat) : Files :=
  (releases.set [hash] (.dir (days (200 - age)))).set [hash, "BUILD_HASH"]
    (.file (some hash))

def hashOf (digit : Char) : Hash := String.ofList (List.replicate 64 digit)

/-- Four old releases, of which the first one is the oldest. -/
def fourReleases : SiteRoot where
  releases := some (addRelease (addRelease (addRelease (addRelease Table.empty (hashOf 'a') 99)
    (hashOf 'b') 98) (hashOf 'c') 97) (hashOf 'd') 96)
  current := .inside [hashOf 'd']
  previous := .notLink

/-- Everything can be deleted. -/
def pruneFour : Option (SiteRoot × Nat) :=
  pruneSiteReleases (fun _ => none) fourReleases [] (days 200)

theorem pruneFour_count : pruneFour.map Prod.snd = some 1 := by decide +kernel

theorem prune_safe_four :
    ∃ site' : SiteRoot, (site'.current = fourReleases.current ∧
        site'.previous = fourReleases.previous) ∧
      (∀ path, site'.files.get path = fourReleases.files.get path ∨
        (site'.files.get path = none ∧ ∃ hash modifiedAt rest, path = hash :: rest ∧
          Deletable fourReleases [] (days 200) hash modifiedAt)) ∧
      ∃ removed : List Hash, removed.Nodup ∧ 1 = removed.length ∧
        ∀ hash, hash ∈ removed ↔
          (fourReleases.files.get [hash]).isSome = true ∧ site'.files.get [hash] = none := by
  obtain ⟨⟨site', n⟩, hresult, rfl⟩ := Option.map_eq_some_iff.mp pruneFour_count
  exact ⟨site', prune_safe hresult⟩

end MegaPanel.Release.Pruning

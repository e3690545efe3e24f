import MegaPanel.Release.Integrity
import MegaPanel.Release.Trees

set_option autoImplicit false

/-! # What the monitor's hash can tell apart

`_release_hash` of the monitor streams the path, a zero byte and the content itself of each file,
where the builder's `_artifact_tree_hash` gives a digest of the content. Nothing closes a content,
so what follows a zero byte can be a content or the next path: a file can be merged into the file
before it without a trace in the hash.

A release of which every change is noticed has at most one file, and there is no further path in
its content (`release_change_noticed`).
-/

namespace MegaPanel.Release

open MegaPanel.Lib

/-! ## The stream -/

variable {t : Tree}

/-- A release that consists of the files of a tree. -/
def Tree.dir (t : Tree) : Dir where
  artifacts := t.files.map (fun file => (file.1, .file file.2))
  marker := none
  mtime := 0

def totalBytes (files : List (String × List UInt8)) : Nat := (files.map (·.2.length)).sum

/-- The limits of `_release_hash`. -/
def Tree.WithinLimits (t : Tree) : Prop :=
  t.files.length ≤ maxFiles ∧ totalBytes t.files ≤ maxBytes

instance (t : Tree) : Decidable t.WithinLimits := inferInstanceAs (Decidable (_ ∧ _))

def contentRecord (file : String × List UInt8) : List UInt8 × List UInt8 := (utf8 file.1, file.2)

/-- The bytes of a list of files. -/
def contentBytes (files : List (String × List UInt8)) : List UInt8 :=
  Records.stream 0 (files.map contentRecord)

theorem hashedBytes_files (files : List (String × List UInt8)) :
    ∀ (n total : Nat) (bytes : List UInt8), n + files.length ≤ maxFiles →
      total + totalBytes files ≤ maxBytes →
      hashedBytes (files.map (fun file => (file.1, .file file.2))) n total bytes
        = some (bytes ++ contentBytes files) := by
  induction files with
  | nil => intro n total bytes _ _; simp [hashedBytes, contentBytes]
  | cons file files ih =>
    intro n total bytes hn htotal
    rw [List.length_cons] at hn
    rw [totalBytes, List.map_cons, List.sum_cons] at htotal
    rw [List.map_cons, hashedBytes, if_neg (by omega)]
    rw [ih _ _ _ (by omega) (by rw [totalBytes]; omega), contentBytes, contentBytes,
      List.map_cons, Records.stream_cons, contentRecord, utf8]
    simp only [List.append_assoc]

theorem totalBytes_perm {fs gs : List (String × List UInt8)} (h : fs.Perm gs) :
    totalBytes fs = totalBytes gs := (h.map _).sum_eq

/-- Within the limits the hash is the digest of the stream. -/
theorem releaseHash_dir (h : t.WithinLimits) :
    releaseHash t.dir = some (Sha256.hexdigest (contentBytes t.sorted)) := by
  have hsorted : t.dir.artifacts.insertionSort (fun a b => a.1 ≤ b.1)
      = t.sorted.map (fun file => (file.1, .file file.2)) :=
    (List.map_insertionSort (fun a b : String × List UInt8 => a.1 ≤ b.1)
      (fun a b : String × Artifact => a.1 ≤ b.1) (fun file => (file.1, .file file.2)) t.files
      (fun _ _ _ _ => Iff.rfl)).symm
  have hlength : t.sorted.length = t.files.length := (byPath_perm t.files).length_eq
  have htotal : totalBytes t.sorted = totalBytes t.files := totalBytes_perm (byPath_perm t.files)
  rw [releaseHash, hsorted, hashedBytes_files t.sorted 0 0 [] (by rw [hlength]; have := h.1; omega)
    (by rw [htotal]; have := h.2; omega)]
  rfl

/-! ## Changes -/

variable {u : Tree}

def Tree.SameFiles (t u : Tree) : Prop := ∀ file, file ∈ t.files ↔ file ∈ u.files

/-- Up to collisions of SHA-256, no other tree within the limits has the hash of this one. -/
def Noticed (t : Tree) : Prop :=
  ∀ u : Tree, u.WithinLimits →
    Sha256.CollisionFree {contentBytes t.sorted, contentBytes u.sorted} →
    releaseHash u.dir = releaseHash t.dir → u.SameFiles t

/-- There is at most one file, and no piece of its content could be a further path. -/
def Tree.Single (t : Tree) : Prop :=
  t.files.length ≤ 1 ∧
    ∀ path content, (path, content) ∈ t.files → ∀ before next after,
      content = before ++ utf8 next ++ 0 :: after → isPath next = true → path < next →
        isBelow path next = true

/-- There are several files, and so many bytes that merging two files would exceed the limit. -/
def Tree.Full (t : Tree) : Prop :=
  2 ≤ t.files.length ∧
    ∀ path ∈ t.sorted.tail.map Prod.fst, maxBytes < totalBytes t.files + (utf8 path).length + 1

theorem Tree.SameFiles.of_sorted (h : u.sorted = t.sorted) : u.SameFiles t :=
  fun _ => by rw [← Tree.mem_sorted, ← Tree.mem_sorted, h]

/-- Without a collision, one hash is one stream. -/
theorem stream_of_hash (ht : t.WithinLimits) (hu : u.WithinLimits)
    (hfree : Sha256.CollisionFree {contentBytes t.sorted, contentBytes u.sorted})
    (h : releaseHash u.dir = releaseHash t.dir) :
    contentBytes u.sorted = contentBytes t.sorted := by
  rw [releaseHash_dir ht, releaseHash_dir hu, Option.some.injEq] at h
  exact hfree (.inr rfl) (.inl rfl) (Sha256.hexdigest_inj.mp h)

/-- One stream is one hash. -/
theorem Noticed.sameFiles (h : Noticed t) (ht : t.WithinLimits) (hu : u.WithinLimits)
    (hbytes : contentBytes u.sorted = contentBytes t.sorted) : u.SameFiles t := by
  refine h u hu ?_ (by rw [releaseHash_dir ht, releaseHash_dir hu, hbytes])
  rw [hbytes, Set.pair_eq_singleton]
  exact Set.injOn_singleton _ _

theorem contentRecord_noZero (t : Tree) : ∀ r ∈ t.sorted.map contentRecord, 0 ∉ r.1 := by
  intro r hr
  obtain ⟨file, hfile, rfl⟩ := List.mem_map.mp hr
  exact t.noZero (Tree.mem_sorted.mp hfile)

/-! ## A single file -/

theorem Tree.sorted_of_length (h : t.files.length ≤ 1) : t.sorted = t.files := by
  refine List.Pairwise.insertionSort_eq ?_
  match t.files, h with
  | [], _ => exact List.Pairwise.nil
  | [file], _ => exact List.pairwise_singleton _ _

/-- In a sorted tree the first path is below all others. -/
theorem Tree.head_lt {first file : String × List UInt8} {rest : List (String × List UInt8)}
    (h : t.sorted = first :: rest) (hmem : file ∈ rest) : first.1 < file.1 := by
  have hle := byPath_pairwise t.files
  have hdistinct := t.sorted_distinct
  rw [show byPath t.files = t.sorted from rfl, h] at hle
  rw [h, List.map_cons] at hdistinct
  have hne : first.1 ≠ file.1 := fun heq =>
    (List.nodup_cons.mp hdistinct).1 (heq ▸ List.mem_map_of_mem hmem)
  exact lt_of_le_of_ne ((List.pairwise_cons.mp hle).1 file hmem) hne

theorem Tree.Single.noticed (h : t.Single) (ht : t.WithinLimits) : Noticed t := by
  intro u hu hfree hhash
  have hbytes := stream_of_hash ht hu hfree hhash
  rw [Tree.sorted_of_length h.1] at hbytes
  apply Tree.SameFiles.of_sorted
  rw [Tree.sorted_of_length h.1]
  match hfiles : t.files, h.1 with
  | [], _ =>
    rw [hfiles] at hbytes
    cases husorted : u.sorted with
    | nil => rfl
    | cons file rest => simp [husorted, contentBytes, contentRecord] at hbytes
  | [(path, content)], _ =>
    rw [hfiles] at hbytes
    have hpath : 0 ∉ utf8 path := @Tree.noZero t (path, content) (by rw [hfiles]; simp)
    obtain ⟨content', rest', hrecords, hcontent⟩ :=
      Records.stream_eq_single hpath (contentRecord_noZero u) hbytes
    cases husorted : u.sorted with
    | nil => rw [husorted] at hrecords; cases hrecords
    | cons first rest =>
      rw [husorted, List.map_cons] at hrecords
      obtain ⟨hfirst, rfl⟩ := List.cons_eq_cons.mp hrecords
      obtain ⟨hname, hbody⟩ := Prod.ext_iff.mp hfirst
      have hfirst : first.1 = path := utf8_injective hname
      -- a further file of `u` would be a path in the content of the only file of `t`
      rcases List.eq_nil_or_concat rest with rfl | ⟨init, last, rfl⟩
      · rw [List.map_nil, Records.stream_nil, List.append_nil] at hcontent
        rw [show first = (path, content) from Prod.ext hfirst (hbody.trans hcontent.symm)]
      exfalso
      have hlast : last ∈ u.files := Tree.mem_sorted.mp (by rw [husorted]; simp)
      have hin : first ∈ u.files := Tree.mem_sorted.mp (by rw [husorted]; simp)
      have hlt : path < last.1 := hfirst ▸ Tree.head_lt husorted (by simp)
      rw [List.concat_eq_append, List.map_append, List.map_singleton,
        show contentRecord last = (utf8 last.1, last.2) from rfl, Records.stream_concat,
        ← List.append_assoc, ← List.append_assoc] at hcontent
      have hbelow := h.2 path content (by rw [hfiles]; simp) _ last.1 last.2 hcontent
        (u.valid _ (List.mem_map_of_mem hlast)) hlt
      have hapart := u.apart _ (List.mem_map_of_mem hin) _ (List.mem_map_of_mem hlast)
      rw [hfirst, hbelow] at hapart
      cases hapart

/-! ## Several files -/

variable {path : String}

theorem lt_of_isBelow {directory : String} (h : isBelow directory path = true) :
    directory < path := by
  obtain ⟨rest, hrest⟩ := List.isPrefixOf_iff_prefix.mp h
  have hlt : directory.toList ++ [] < directory.toList ++ '/' :: rest :=
    List.append_left_lt (List.nil_lt_cons '/' rest)
  rw [String.lt_iff_toList_lt, ← hrest, List.append_assoc]
  rwa [List.append_nil] at hlt

/-- Some of the paths of a tree, in their order, with other contents. -/
def Tree.recut (t : Tree) (files : List (String × List UInt8))
    (h : (files.map Prod.fst).Sublist (t.sorted.map Prod.fst)) : Tree where
  files := files
  distinct := t.sorted_distinct.sublist h
  valid path hpath := t.valid path (((byPath_perm t.files).map Prod.fst).subset (h.subset hpath))
  apart path hpath other hother :=
    t.apart path (((byPath_perm t.files).map Prod.fst).subset (h.subset hpath))
      other (((byPath_perm t.files).map Prod.fst).subset (h.subset hother))

theorem Tree.sorted_recut (t : Tree) (files : List (String × List UInt8))
    (h : (files.map Prod.fst).Sublist (t.sorted.map Prod.fst)) :
    (t.recut files h).sorted = files := by
  refine List.Pairwise.insertionSort_eq ?_
  have hpaths : (t.sorted.map Prod.fst).Pairwise (· ≤ ·) :=
    List.pairwise_map.mpr (byPath_pairwise t.files)
  exact List.pairwise_map.mp (hpaths.sublist h)

theorem split_of_mem_tail {α : Type*} {x : α} {xs : List α} (h : x ∈ xs.tail) :
    ∃ before y after, xs = before ++ y :: x :: after := by
  cases xs with
  | nil => cases h
  | cons first all =>
    obtain ⟨init, after, rfl⟩ := List.append_of_mem (show x ∈ all from h)
    rcases List.eq_nil_or_concat (first :: init) with hnil | ⟨before, y, hlast⟩
    · cases hnil
    refine ⟨before, y, after, ?_⟩
    rw [← List.cons_append, hlast, List.concat_eq_append, List.append_assoc,
      List.singleton_append]

/-- **Merging**: a file of which every change is noticed cannot be merged into the file before it
within the limits. -/
theorem Noticed.no_room (h : Noticed t) (ht : t.WithinLimits)
    {before after : List (String × List UInt8)} {path₀ : String} {body₀ body : List UInt8}
    (hsplit : t.sorted = before ++ (path₀, body₀) :: (path, body) :: after) :
    maxBytes < totalBytes t.files + (utf8 path).length + 1 := by
  by_contra hroom
  let merged := before ++ (path₀, body₀ ++ utf8 path ++ 0 :: body) :: after
  have hpaths : t.sorted.map Prod.fst
      = before.map Prod.fst ++ path₀ :: path :: after.map Prod.fst := by
    rw [hsplit, List.map_append, List.map_cons, List.map_cons]
  have hmerged : merged.map Prod.fst = before.map Prod.fst ++ path₀ :: after.map Prod.fst := by
    rw [List.map_append, List.map_cons]
  have hsublist : (merged.map Prod.fst).Sublist (t.sorted.map Prod.fst) := by
    rw [hmerged, hpaths]
    exact (((List.Sublist.refl _).cons _).cons_cons _).append_left _
  have hlength : t.sorted.length = t.files.length := (byPath_perm t.files).length_eq
  have htotal : totalBytes t.sorted = totalBytes t.files := totalBytes_perm (byPath_perm t.files)
  have hlimits : (t.recut merged hsublist).WithinLimits := by
    have hcount := ht.1
    rw [← hlength, hsplit] at hcount
    rw [← htotal, hsplit] at hroom
    simp only [totalBytes, List.map_append, List.map_cons, List.sum_append, List.sum_cons,
      List.length_append, List.length_cons] at hcount hroom
    constructor
    · simp only [Tree.recut, merged, List.length_append, List.length_cons]
      omega
    · simp only [Tree.recut, merged, totalBytes, List.map_append, List.map_cons, List.sum_append,
        List.sum_cons, List.length_append, List.length_cons]
      omega
  have hbytes : contentBytes (t.recut merged hsublist).sorted = contentBytes t.sorted := by
    rw [Tree.sorted_recut, hsplit]
    simp only [contentBytes, merged, List.map_append, List.map_cons, contentRecord]
    rw [Records.stream_merge]
  -- the path of the merged file is gone
  have hgone : path ∉ merged.map Prod.fst := by
    have hnodup := t.sorted_distinct
    rw [hpaths, ← List.singleton_append, ← List.append_assoc, List.perm_middle.nodup_iff,
      List.append_assoc, List.singleton_append, ← hmerged] at hnodup
    exact (List.nodup_cons.mp hnodup).1
  have hfound : (path, body) ∈ t.files := Tree.mem_sorted.mp (by rw [hsplit]; simp)
  exact hgone (List.mem_map_of_mem ((h.sameFiles ht hlimits hbytes _).mpr hfound))

theorem Noticed.full (h : Noticed t) (ht : t.WithinLimits) (hlen : 2 ≤ t.files.length) :
    t.Full := by
  refine ⟨hlen, fun path hpath => ?_⟩
  obtain ⟨⟨_, body⟩, hfile, rfl⟩ := List.mem_map.mp hpath
  obtain ⟨before, ⟨path₀, body₀⟩, after, hsplit⟩ := split_of_mem_tail hfile
  exact h.no_room ht hsplit

/-- **Splitting**: a path in the content of the only file can be split off. -/
theorem Noticed.single (h : Noticed t) (ht : t.WithinLimits) (hlen : t.files.length ≤ 1) :
    t.Single := by
  refine ⟨hlen, fun path content hmem before next after hcontent hnext hlt => ?_⟩
  by_contra hbelow
  have hfiles : t.files = [(path, content)] := by
    match hf : t.files, hlen with
    | [], _ => rw [hf] at hmem; cases hmem
    | [file], _ => rw [hf] at hmem; rw [List.mem_singleton.mp hmem]
  have hself : ∀ p : String, isBelow p p = false := fun p =>
    Bool.eq_false_iff.mpr (fun hp => lt_irrefl p (lt_of_isBelow hp))
  have hback : isBelow next path = false :=
    Bool.eq_false_iff.mpr (fun hp => lt_asymm hlt (lt_of_isBelow hp))
  let split : Tree :=
    { files := [(path, before), (next, after)]
      distinct := by
        rw [List.map_cons, List.map_singleton, List.nodup_cons, List.mem_singleton]
        exact ⟨ne_of_lt hlt, List.nodup_singleton _⟩
      valid := by
        simp only [List.map_cons, List.map_nil, List.mem_cons, List.not_mem_nil, or_false,
          forall_eq_or_imp, forall_eq]
        exact ⟨t.valid path (List.mem_map_of_mem hmem), hnext⟩
      apart := by
        simp only [List.map_cons, List.map_nil, List.mem_cons, List.not_mem_nil, or_false,
          forall_eq_or_imp, forall_eq]
        exact ⟨⟨hself path, Bool.eq_false_iff.mpr hbelow⟩, hback, hself next⟩ }
  have hsorted : split.sorted = [(path, before), (next, after)] :=
    List.Pairwise.insertionSort_eq (List.pairwise_pair.mpr (le_of_lt hlt))
  have hlimits : split.WithinLimits := by
    have hbytes := ht.2
    rw [hfiles, hcontent] at hbytes
    simp only [totalBytes, List.map_singleton, List.sum_singleton, List.length_append,
      List.length_cons] at hbytes
    constructor
    · show 2 ≤ maxFiles
      decide
    · show before.length + (after.length + 0) ≤ maxBytes
      omega
  have hbytes : contentBytes split.sorted = contentBytes t.sorted := by
    rw [hsorted, Tree.sorted_of_length hlen, hfiles, hcontent]
    simp [contentBytes, contentRecord]
  have hfound := (h.sameFiles ht hlimits hbytes (next, after)).mp
    (List.mem_cons_of_mem _ List.mem_cons_self)
  rw [hfiles] at hfound
  cases List.mem_singleton.mp hfound
  exact lt_irrefl _ hlt

/-- **Where every change is noticed.** The hash of a release with at most one file, whose content
holds no further path, tells it from every other release; that of any other release does not,
unless it is within a path's length of the limit on the bytes. -/
theorem release_change_noticed (t : Tree) (ht : t.WithinLimits) :
    (t.Single → Noticed t) ∧ (Noticed t → t.Single ∨ t.Full) := by
  refine ⟨fun h => h.noticed ht, fun h => ?_⟩
  by_cases hlen : t.files.length ≤ 1
  · exact .inl (h.single ht hlen)
  · exact .inr (h.full ht (by omega))

/-- A release with the marker alone. -/
def markerOnly : Tree where
  files := [("BUILD_HASH", [97])]
  distinct := by decide
  valid := by decide
  apart := by decide

theorem release_change_noticed_marker :
    (markerOnly.Single → Noticed markerOnly) ∧
      (Noticed markerOnly → markerOnly.Single ∨ markerOnly.Full) :=
  release_change_noticed markerOnly (by decide)

def publishedFiles : Tree where
  files := [("BUILD_HASH", [97]), ("index.html", [98]), ("robots.txt", [99])]
  distinct := by decide
  valid := by decide
  apart := by decide

/-- `robots.txt` has become a part of the page. -/
def tamperedFiles : Tree where
  files := [("BUILD_HASH", [97]), ("index.html", [98] ++ utf8 "robots.txt" ++ [0, 99])]
  distinct := by decide
  valid := by decide
  apart := by decide

theorem tampering_unnoticed :
    publishedFiles.WithinLimits ∧ tamperedFiles.WithinLimits ∧
      releaseHash tamperedFiles.dir = releaseHash publishedFiles.dir ∧
      ¬ tamperedFiles.SameFiles publishedFiles := by
  have hpublished : publishedFiles.WithinLimits := by decide
  have htampered : tamperedFiles.WithinLimits := by decide
  have hbytes : contentBytes tamperedFiles.sorted = contentBytes publishedFiles.sorted := by
    decide +kernel
  refine ⟨hpublished, htampered, ?_, fun h => ?_⟩
  · rw [releaseHash_dir hpublished, releaseHash_dir htampered, hbytes]
  · have hrobots := (h ("robots.txt", [99])).mpr (by decide)
    revert hrobots
    decide

end MegaPanel.Release

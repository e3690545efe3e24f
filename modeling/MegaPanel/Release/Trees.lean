import Mathlib.Data.List.DropRight
import Mathlib.Data.String.Basic
import MegaPanel.Lib.Records
import MegaPanel.Lib.Sha256
import MegaPanel.Release.Files

set_option autoImplicit false

/-! # The hash of a build's output

A tree of regular files, and `_artifact_tree_hash` of the builder over it: for each file in the
order of the paths the path, a zero byte and the digest of the content. `SiteBuilder.build`
writes nothing but directories and regular files into the staging directory it has made, and
names the release by a hash over this one.

A path holds no zero byte and all digests have one length, so the stream can be read back
(`Records.stream_injOn`): up to collisions of SHA-256, two trees with one hash have the same
files (`same_tree_hash_iff`).
-/

namespace MegaPanel.Release

open MegaPanel.Lib

/-! ## Trees -/

/-- The names along a path. -/
def components (path : String) : List (List Char) := path.toList.splitOn '/'

/-- A path as `relative_to(root).as_posix()` gives it. -/
def isPath (path : String) : Bool :=
  !path.toList.contains (Char.ofNat 0) &&
    (components path).all (fun name => name ≠ [] && name ≠ ['.'] && name ≠ ['.', '.'])

/-- `path` is in the directory `directory`. -/
def isBelow (directory path : String) : Bool :=
  (directory.toList ++ ['/']).isPrefixOf path.toList

/-- The regular files of a directory tree, by relative path, in the order of some walk. -/
structure Tree where
  files : List (String × List UInt8)
  distinct : (files.map Prod.fst).Nodup
  valid : ∀ path ∈ files.map Prod.fst, isPath path = true
  /-- No file is a directory. -/
  apart : ∀ path ∈ files.map Prod.fst, ∀ other ∈ files.map Prod.fst, isBelow path other = false

/-- `sorted(…, key=lambda item: item.relative_to(directory).as_posix())` -/
def byPath (files : List (String × List UInt8)) : List (String × List UInt8) :=
  files.insertionSort (fun a b => a.1 ≤ b.1)

def Tree.sorted (t : Tree) : List (String × List UInt8) := byPath t.files

theorem zero_notMem_path {path : String} (h : isPath path = true) : 0 ∉ utf8 path := by
  rw [isPath, Bool.and_eq_true, Bool.not_eq_true', List.contains_eq_mem,
    decide_eq_false_iff_not] at h
  exact zero_notMem_utf8 h.1

theorem mem_byPath {files : List (String × List UInt8)} {file : String × List UInt8} :
    file ∈ byPath files ↔ file ∈ files := List.mem_insertionSort _

theorem byPath_perm (files : List (String × List UInt8)) : (byPath files).Perm files :=
  List.perm_insertionSort _ _

theorem byPath_pairwise (files : List (String × List UInt8)) :
    (byPath files).Pairwise (fun a b => a.1 ≤ b.1) := by
  have : IsTrans (String × List UInt8) (fun a b => a.1 ≤ b.1) := ⟨fun _ _ _ => le_trans⟩
  have : Std.Total (fun a b : String × List UInt8 => a.1 ≤ b.1) := ⟨fun a b => le_total a.1 b.1⟩
  exact List.pairwise_insertionSort _ _

theorem Tree.sorted_distinct (t : Tree) : (t.sorted.map Prod.fst).Nodup :=
  ((byPath_perm t.files).map Prod.fst).nodup_iff.mpr t.distinct

theorem Tree.mem_sorted {t : Tree} {file : String × List UInt8} :
    file ∈ t.sorted ↔ file ∈ t.files := mem_byPath

theorem Tree.noZero (t : Tree) {file : String × List UInt8} (h : file ∈ t.files) :
    0 ∉ utf8 file.1 := zero_notMem_path (t.valid file.1 (List.mem_map_of_mem h))

/-! ## The hash -/

/-- `artifact.suffix`: what follows the last dot, if the name neither starts nor ends there. -/
def suffixOf (path : String) : List Char :=
  let name := path.toList.rtakeWhile (· ≠ '/')
  let extension := name.rtakeWhile (· ≠ '.')
  if extension ≠ [] ∧ extension.length + 1 < name.length then '.' :: extension else []

/-- A file that the hash does not skip. -/
def counted (file : String × List UInt8) : Bool := suffixOf file.1 ≠ ['.', 'g', 'z']

/-- The loop of `_artifact_tree_hash`: the bytes given to the digest. -/
def artifactBytes : List (String × List UInt8) → List UInt8
  | [] => []
  | file :: rest =>
    if counted file then
      utf8 file.1 ++ 0 :: Sha256.digestBytes file.2 ++ artifactBytes rest
    else artifactBytes rest

/-- `_artifact_tree_hash` -/
def artifactTreeHash (directory : Tree) : String :=
  Sha256.hexdigest (artifactBytes directory.sorted)

/-- What `_artifact_tree_hash` gives to SHA-256. -/
def hashedMessages (t : Tree) : Set (List UInt8) :=
  {message | message = artifactBytes t.sorted ∨ ∃ file ∈ t.files, message = file.2}

/-- `"".join(hashes)` at the end of `build`: the content hashes of the pages, the hash of the
tree and the hash of the assets' metadata. -/
def joinedHashes (pages : List String) (directory : Tree) (assetsMeta : String) : String :=
  String.join (pages ++ [artifactTreeHash directory, Sha256.sha256Hex assetsMeta])

/-- The build hash. -/
def buildHashOf (pages : List String) (directory : Tree) (assetsMeta : String) : Hash :=
  Sha256.sha256Hex (joinedHashes pages directory assetsMeta)

/-- A page, and the same page with its compressed twin. -/
def plainPage : Tree where
  files := [("index.html", [])]
  distinct := by decide
  valid := by decide
  apart := by decide

end MegaPanel.Release

import MegaPanel.Basic
import MegaPanel.Lib.Table

set_option autoImplicit false

/-! # Releases on disk

The directory of one site under the sites root: `releases/<hash>` holds the built releases,
`current` and `previous` are links to two of them. Where symbolic links cannot be made, the
builder falls back to moving directories, and `current` and `previous` are then release
directories themselves.

The functions are those of `SiteBuilder`. The flag `links` says whether symbolic links can
be made; replacing a real directory by a link fails in either case.
-/

namespace MegaPanel.Release

open MegaPanel.Lib

/-- A build hash, the name of a release directory. -/
abbrev Hash := String

/-! ## Directories and links -/

inductive Artifact
  | file (content : List UInt8)
  | symlink
  deriving DecidableEq

/-- A release directory: its files by relative path, the stripped text of its `BUILD_HASH`
file, and its modification time. -/
structure Dir where
  artifacts : List (String × Artifact)
  marker : Option String
  mtime : Time
  deriving DecidableEq

/-- `current` or `previous`. -/
inductive Entry
  | absent
  | link (target : Hash)
  | dir (d : Dir)
  deriving DecidableEq

structure Root where
  releases : Table Hash Dir
  current : Entry
  previous : Entry

/-- The directory that a path leads to. -/
def Root.resolve (root : Root) : Entry → Option Dir
  | .absent => none
  | .link target => root.releases.get target
  | .dir d => some d

/-- `_matches_build(path, build_hash)` -/
def matchesBuild (d : Option Dir) (buildHash : Hash) : Bool :=
  d.any (fun d => d.marker = some buildHash)

/-- `_link_points_to(path, releases / hash)` -/
def linkPointsTo (root : Root) (entry : Entry) (hash : Hash) : Bool :=
  match entry with
  | .link target => target = hash && (root.releases.get target).isSome
  | _ => false

def Entry.isDir : Entry → Bool
  | .dir _ => true
  | _ => false

def Entry.isSymlink : Entry → Bool
  | .link _ => true
  | _ => false

/-! ## Building -/

/-- The directory `build` leaves in the staging area. -/
def builtDir (buildHash : Hash) (files : List (String × List UInt8)) (now : Time) : Dir where
  artifacts := (files ++ [("BUILD_HASH", buildHash.toUTF8.data.toList)]).map
    (fun (path, content) => (path, .file content))
  marker := some buildHash
  mtime := now

/-- The end of `build`: the staging directory becomes the release, unless there is a release
of that hash, which is then reused as it is. -/
def placeRelease (root : Root) (buildHash : Hash) (staging : Dir) : Root :=
  if (root.releases.get buildHash).isSome then root
  else { root with releases := root.releases.set buildHash staging }

/-! ## Activation -/

/-- The fallback of `_activate_release`: `current` moves to `previous`, the release to
`current`. -/
def moveRelease (root : Root) (buildHash : Hash) : Root :=
  match root.releases.get buildHash with
  | none => root
  | some release =>
    { releases := root.releases.erase buildHash
      current := .dir release
      previous := root.current }

/-- `_activate_release` -/
def activateRelease (links : Bool) (root : Root) (buildHash : Hash) : Root :=
  match root.current with
  | .absent =>
    if links then { root with current := .link buildHash } else moveRelease root buildHash
  | .link target =>
    -- a directory in the place of `previous` is deleted first
    let root := if root.previous.isDir then { root with previous := .absent } else root
    if links then { root with previous := .link target, current := .link buildHash }
    else moveRelease root buildHash
  | .dir _ => moveRelease root buildHash

/-- `activate` -/
def activate (links : Bool) (root : Root) (buildHash : Hash) : Root × Bool :=
  if matchesBuild (root.releases.get buildHash) buildHash then
    let root := activateRelease links root buildHash
    (root, matchesBuild (root.resolve root.current) buildHash)
  else (root, false)

/-! ## Restoring -/

/-- `restore_activation` of a first activation: there is nothing to go back to. -/
def restoreFirst (root : Root) (candidate : Hash) : Root × Bool :=
  if root.previous ≠ .absent then (root, false)
  else
    match root.current with
    | .absent => (root, false)
    | .link _ =>
      if matchesBuild (root.releases.get candidate) candidate
          && linkPointsTo root root.current candidate then
        ({ root with current := .absent }, true)
      else (root, false)
    | .dir d =>
      if (root.releases.get candidate).isSome then (root, false)
      else
        let root := { root with releases := root.releases.set candidate d, current := .absent }
        (root, matchesBuild (root.releases.get candidate) candidate)

/-- `restore_activation` with links: `current` goes back to the old release and `previous` to
the candidate. -/
def restoreLinks (links : Bool) (root : Root) (candidate old : Hash) : Root × Bool :=
  if matchesBuild (root.releases.get candidate) candidate
      && matchesBuild (root.releases.get old) old
      && linkPointsTo root root.current candidate && linkPointsTo root root.previous old then
    if links then
      let root := { root with current := .link old, previous := .link candidate }
      (root, matchesBuild (root.resolve root.current) old
        && matchesBuild (root.resolve root.previous) candidate)
    else (root, false)
  else (root, false)

/-- `restore_activation` with directories. -/
def restoreDirs (root : Root) (candidate old : Hash) : Root × Bool :=
  match root.current, root.previous with
  | .dir current, .dir previous =>
    if (root.releases.get candidate).isSome || (root.releases.get old).isSome then (root, false)
    else
      let root := { root with current := .dir previous, previous := .dir current }
      (root, matchesBuild (root.resolve root.current) old
        && matchesBuild (root.resolve root.previous) candidate)
  | _, _ => (root, false)

/-- `restore_activation` -/
def restoreActivation (links : Bool) (root : Root) (candidate : Hash) (old : Option Hash) :
    Root × Bool :=
  if !matchesBuild (root.resolve root.current) candidate then (root, false)
  else
    match old with
    | none => restoreFirst root candidate
    | some old =>
      if !matchesBuild (root.resolve root.previous) old then (root, false)
      else if root.current.isSymlink || root.previous.isSymlink then
        restoreLinks links root candidate old
      else restoreDirs root candidate old

end MegaPanel.Release

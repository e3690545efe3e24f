import MegaPanel.Lib.Sha256
import MegaPanel.Release.Identity

set_option autoImplicit false

/-! # The integrity monitor

`verify_published_release_integrity` compares a hash over all files of the active release
with the one it stored at its first visit, and raises an alarm when they differ or when the
hash cannot be taken. Its loop treats the sites one by one. The model follows one site.

The stored hash is written once: neither a publication nor a rollback touches it. So, over
releases that nobody modifies, the monitor stays silent exactly as long as it always finds a
release with one and the same hash. The file `BUILD_HASH` is among the files hashed, so that
is the same release, hash collisions apart.
-/

namespace MegaPanel.Release

open MegaPanel.Lib

/-! ## The hash of a release -/

/-- `_MAX_FILES` -/
def maxFiles : Nat := 10000

/-- `_MAX_BYTES` -/
def maxBytes : Nat := 512 * 1024 * 1024

/-- The loop of `_release_hash`: the bytes given to the digest, `none` at a symbolic link or
beyond a limit. -/
def hashedBytes : List (String × Artifact) → Nat → Nat → List UInt8 → Option (List UInt8)
  | [], _, _, bytes => some bytes
  | (_, .symlink) :: _, _, _, _ => none
  | (path, .file content) :: rest, files, total, bytes =>
    let files := files + 1
    let total := total + content.length
    if files > maxFiles ∨ total > maxBytes then none
    else hashedBytes rest files total (bytes ++ path.toUTF8.data.toList ++ 0 :: content)

/-- `_release_hash` -/
def releaseHash (release : Dir) : Option String :=
  (hashedBytes (release.artifacts.insertionSort (fun a b => a.1 ≤ b.1)) 0 0 []).map
    Sha256.hexdigest

/-- The monitor visits published sites. -/
def visited (w : World) : Bool := w.site.published && w.site.buildHash.isSome

variable {w t : World}

variable {hash : String}

end MegaPanel.Release

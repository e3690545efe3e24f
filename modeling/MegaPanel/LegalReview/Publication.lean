import MegaPanel.LegalReview.Model

set_option autoImplicit false

/-! # The legal review at the commit of a publication

The gate reads the review of a build before the links are switched and Caddy is asked. Until the
commit, other requests can review the same build. The review that is stored at the commit is an
approval of the build exactly when the last review committed since the gate, if there is one, is an
approval (`legal_approval_holds`).
-/

namespace MegaPanel.LegalReview

open MegaPanel.Lib

/-! ## What is asked of a commit -/

/-- The stored review approves the build with the hash of its own content. -/
def Approved (build : Build) : Prop :=
  ∃ review, build.legalReview = some review ∧ review.state = "approved" ∧
    review.legalSnapshotHash = legalSnapshotHash build

/-- What is asked of the commit of a publication or rollback. -/
def CommitsApproved (w : World) (a : Action) : Prop :=
  ∀ rid now p, a = .commit rid now → w.requests.get rid = some (.publishing p .agreed) →
    ∃ build, w.builds.get p.id = some build ∧ Approved build

/-! ## The reviews since the gate -/

/-- The history variable: the last review that has been committed on the build of a publication since
its gate. -/
abbrev Since := RequestId → Option Review

def note (w : World) (a : Action) (since : Since) : Since :=
  match a with
  | .publish rid _ _ => Function.update since rid none
  | .rollback rid _ => Function.update since rid none
  | .commitReview rid =>
    match w.requests.get rid with
    | some (.reviewing id loaded review) => fun other =>
      match w.requests.get other with
      | some (.publishing p _) =>
        -- a review equal to the one that was loaded is not written
        if p.id = id ∧ loaded.legalReview ≠ some review then some review else since other
      | _ => since other
    | _ => since
  | _ => since

/-- The condition on a commit: no review since the gate, or the last one is an approval. -/
def noneRejectedSince (w : World) (since : Since) (a : Action) : Bool :=
  match a with
  | .commit rid _ =>
    match w.requests.get rid with
    | some (.publishing _ .agreed) =>
      (since rid).all (fun review => decide (review.state = "approved"))
    | _ => true
  | _ => true

/-! ## The invariant -/

variable {read stored : Build} {builds : Table BuildId Build} {s : Session} {w t : World}
  {since : Since} {rid : RequestId} {id : BuildId} {a : Action}

/-- The stored build has the content that was read. -/
structure SameContent (read stored : Build) : Prop where
  buildHash : stored.buildHash = read.buildHash
  legal : stored.legal = read.legal

theorem SameContent.refl (build : Build) : SameContent build build := ⟨rfl, rfl⟩

theorem SameContent.trans {a b c : Build} (h : SameContent a b) (h' : SameContent b c) :
    SameContent a c := ⟨h'.buildHash.trans h.buildHash, h'.legal.trans h.legal⟩

theorem SameContent.hash (h : SameContent read stored) :
    legalSnapshotHash stored = legalSnapshotHash read := by
  rw [legalSnapshotHash, legalSnapshotHash, h.buildHash, h.legal]

/-- What is known of a request between its read and its end. -/
inductive InFlight (builds : Table BuildId Build) (since : Option Review) : Session → Prop
  | reviewing (id : BuildId) (read stored : Build) (review : Review)
      (hget : builds.get id = some stored) (hsame : SameContent read stored)
      (hhash : review.legalSnapshotHash = legalSnapshotHash read) :
      InFlight builds since (.reviewing id read review)
  | publishing (p : Publication) (phase : Phase) (stored : Build)
      (hget : builds.get p.id = some stored) (hsame : SameContent p.build stored)
      (hgate : legalReviewPasses p.build = true)
      (hnone : since = none → stored.legalReview = p.build.legalReview)
      (hsome : ∀ review, since = some review → stored.legalReview = some review ∧
        review.legalSnapshotHash = legalSnapshotHash p.build) :
      InFlight builds since (.publishing p phase)

def Sound (w : World) (since : Since) : Prop :=
  ∀ rid s, w.requests.get rid = some s → InFlight w.builds (since rid) s

/-- Rows that keep content and review keep what is known of a request. -/
theorem InFlight.mono {builds' : Table BuildId Build} {since : Option Review}
    (h : InFlight builds since s)
    (hrows : ∀ id row, builds.get id = some row → ∃ row', builds'.get id = some row' ∧
      SameContent row row' ∧ row'.legalReview = row.legalReview) : InFlight builds' since s := by
  cases h with
  | reviewing id read stored review hget hsame hhash =>
    obtain ⟨row', hget', hsame', _⟩ := hrows id stored hget
    exact .reviewing id read row' review hget' (hsame.trans hsame') hhash
  | publishing p phase stored hget hsame hgate hnone hsome =>
    obtain ⟨row', hget', hsame', hreview⟩ := hrows p.id stored hget
    refine .publishing p phase row' hget' (hsame.trans hsame') hgate ?_ ?_
    · exact fun h => hreview.trans (hnone h)
    · exact fun review h => ⟨hreview.trans (hsome review h).1, (hsome review h).2⟩

/-- A request begins or goes on. -/
theorem Sound.setSession {since' : Since} (hs : Sound w since)
    (hflight : InFlight w.builds (since' rid) s)
    (hsince : ∀ other, other ≠ rid → since' other = since other) :
    Sound (w.setSession rid s) since' := by
  intro other t hget
  rcases Table.get_set_eq_some.mp hget with ⟨rfl, rfl⟩ | ⟨hne, hget⟩
  · exact hflight
  · rw [hsince other hne]
    exact hs other t hget

theorem Sound.endSession (hs : Sound w since) (rid : RequestId) : Sound (w.endSession rid) since :=
  fun other t hget => hs other t (Table.get_erase_eq_some.mp hget).2

/-- A step that changes the rows, but neither content nor review. -/
theorem Sound.setBuilds {site : SiteRow} (hs : Sound w since)
    (hrows : ∀ id row, w.builds.get id = some row → ∃ row', builds.get id = some row' ∧
      SameContent row row' ∧ row'.legalReview = row.legalReview) :
    Sound { w with builds := builds, site := site } since :=
  fun rid s hget => (hs rid s hget).mono hrows

/-- A publication that begins has passed the gate. -/
theorem Sound.begin {build : Build} {firstPublishedAt : Option Time} (hs : Sound w since)
    (hget : w.builds.get id = some build) (h : w.begin rid id build firstPublishedAt = some t) :
    Sound t (Function.update since rid none) := by
  unfold World.begin at h
  split at h
  · next hgate =>
    cases h
    refine hs.setSession ?_ (fun other hne => Function.update_of_ne hne ..)
    rw [Function.update_self]
    exact .publishing _ _ build hget (.refl build) hgate.2 (fun _ => rfl) nofun
  · cases h

/-- **The commit of a review.** Each publication of the same build has seen it since its gate, if it
is written at all. -/
theorem Sound.commitReview {loaded : Build} {review : Review} (hs : Sound w since)
    (hrequest : w.requests.get rid = some (.reviewing id loaded review)) :
    Sound { w with builds := w.builds.modify id (loaded.flushReview review) }
      (note w (.commitReview rid) since) := by
  have hcontent : ∀ row, SameContent row (loaded.flushReview review row) := fun _ => ⟨rfl, rfl⟩
  obtain ⟨hloaded, hhash⟩ : (∃ stored, w.builds.get id = some stored ∧ SameContent loaded stored) ∧
      review.legalSnapshotHash = legalSnapshotHash loaded := by
    cases hs rid _ hrequest with
    | reviewing _ _ stored _ hget hsame hhash => exact ⟨⟨stored, hget, hsame⟩, hhash⟩
  intro other s hget
  simp only [note, hrequest]
  have hother : w.requests.get other = some s := hget
  cases hs other s hother with
  | reviewing id' read stored review' hget' hsame hhash' =>
    by_cases hid : id' = id
    · refine .reviewing id' read (loaded.flushReview review stored) review' ?_
        (hsame.trans (hcontent stored)) hhash'
      rw [hid, Table.get_modify_self, ← hid, hget', Option.map_some]
    · refine .reviewing id' read stored review' ?_ hsame hhash'
      rw [Table.get_modify_ne _ hid, hget']
  | publishing p phase stored hget' hsame hgate hnone hsome =>
    rw [hother]
    dsimp only
    by_cases hid : p.id = id
    · have hrow : (w.builds.modify id (loaded.flushReview review)).get p.id
          = some (loaded.flushReview review stored) := by
        rw [hid, Table.get_modify_self, ← hid, hget', Option.map_some]
      refine .publishing p phase _ hrow (hsame.trans (hcontent stored)) hgate ?_ ?_
      · intro h
        split_ifs at h with hclean
        have hclean := not_not.mp (fun hne => hclean ⟨hid, hne⟩)
        rw [Build.flushReview, ← hclean, writeCol_clean]
        exact hnone h
      · intro r h
        split at h
        · next hwritten =>
          cases h
          refine ⟨writeCol_dirty (fun heq => hwritten.2 heq.symm) _, ?_⟩
          obtain ⟨row, hrow', hloaded⟩ := hloaded
          rw [← hid, hget'] at hrow'
          cases hrow'
          rw [hhash, ← hloaded.hash, hsame.hash]
        · next hclean =>
          have hclean := not_not.mp (fun hne => hclean ⟨hid, hne⟩)
          rw [Build.flushReview, ← hclean, writeCol_clean]
          exact hsome r h
    · rw [if_neg (fun h => hid h.1)]
      refine .publishing p phase stored ?_ hsame hgate hnone hsome
      rw [Table.get_modify_ne _ hid, hget']

/-- A write that keeps content and review, of one row. -/
theorem modify_rows {builds : Table BuildId Build} {id : BuildId} {f : Build → Build}
    (hf : ∀ row, SameContent row (f row) ∧ (f row).legalReview = row.legalReview) :
    ∀ j row, builds.get j = some row → ∃ row', (builds.modify id f).get j = some row' ∧
      SameContent row row' ∧ row'.legalReview = row.legalReview := by
  intro j row hget
  by_cases hj : j = id
  · subst hj
    exact ⟨f row, by rw [Table.get_modify_self, hget, Option.map_some], hf row⟩
  · exact ⟨row, by rw [Table.get_modify_ne _ hj, hget], .refl row, rfl⟩

theorem Sound.step (hs : Sound w since) (h : LegalReview.step w a = some t) :
    Sound t (note w a since) := by
  cases a with
  | build id hash legal =>
    simp only [LegalReview.step] at h
    split at h
    · next hfree =>
      cases h
      refine hs.setBuilds (fun j row hget => ?_)
      have hne : j ≠ id := by
        rintro rfl
        cases hfree.symm.trans hget
      exact ⟨row, (Table.get_set_ne _ hne _).trans hget, .refl row, rfl⟩
    · cases h
  | review rid id body user now =>
    simp only [LegalReview.step] at h
    split at h
    · obtain ⟨build, hget, h⟩ := Option.bind_eq_some_iff.mp h
      split at h
      · cases h
        exact hs.setSession (.reviewing id build build _ hget (.refl build) rfl)
          (fun _ _ => rfl)
      · cases h
    · cases h
  | commitReview rid =>
    simp only [LegalReview.step] at h
    split at h
    · next id loaded review hrequest =>
      cases h
      exact (hs.commitReview hrequest).endSession rid
    · cases h
  | publish rid id now =>
    obtain ⟨build, hget, h⟩ := Option.bind_eq_some_iff.mp h
    split at h
    · exact hs.begin hget h
    · cases h
  | rollback rid hash =>
    simp only [LegalReview.step] at h
    split_ifs at h
    split at h
    · next id build hmatches =>
      have hmem : (id, build) ∈ rollbackMatches w hash := by
        rw [hmatches]
        exact List.mem_singleton_self _
      exact hs.begin (Table.mem_rows.mp (List.mem_filter.mp hmem).1) h
    · cases h
  | activate rid ok =>
    simp only [LegalReview.step] at h
    split at h
    · next p hrequest =>
      cases h
      split
      · cases hs rid _ hrequest with
        | publishing _ _ stored hget hsame hgate hnone hsome =>
          exact hs.setSession (.publishing p .activated stored hget hsame hgate hnone hsome)
            (fun _ _ => rfl)
      · exact hs.endSession rid
    · cases h
  | caddy rid ok =>
    simp only [LegalReview.step] at h
    split at h
    · next p hrequest =>
      cases h
      split
      · cases hs rid _ hrequest with
        | publishing _ _ stored hget hsame hgate hnone hsome =>
          exact hs.setSession (.publishing p .agreed stored hget hsame hgate hnone hsome)
            (fun _ _ => rfl)
      · exact hs.endSession rid
    · cases h
  | commit rid now =>
    simp only [LegalReview.step] at h
    split at h
    · next p hrequest =>
      cases h
      have hrows := @modify_rows w.builds p.id (p.flushBuild now)
        (fun row => ⟨⟨rfl, rfl⟩, rfl⟩)
      exact Sound.endSession (hs.setBuilds hrows) rid
    · cases h

/-! ## Every commit -/

theorem approved_of_passes (hgate : legalReviewPasses read = true) (hsame : SameContent read stored)
    (hreview : stored.legalReview = read.legalReview) : Approved stored := by
  unfold legalReviewPasses at hgate
  split at hgate
  · cases hgate
  · next review hstored =>
    simp only [Bool.and_eq_true, decide_eq_true_eq] at hgate
    exact ⟨review, hreview.trans hstored, hgate.1.1.1, hgate.1.1.2.trans hsame.hash.symm⟩

theorem commitsApproved_iff (hs : Sound w since) :
    CommitsApproved w a ↔ noneRejectedSince w since a = true := by
  cases a with
  | commit rid now =>
    simp only [noneRejectedSince]
    split
    · next p hrequest =>
      have hcommit : CommitsApproved w (.commit rid now) ↔
          ∃ build, w.builds.get p.id = some build ∧ Approved build := by
        constructor
        · exact fun h => h rid now p rfl hrequest
        · rintro h _ _ p' heq hrequest'
          cases heq
          cases hrequest.symm.trans hrequest'
          exact h
      rw [hcommit]
      cases hs rid _ hrequest with
      | publishing _ _ stored hget hsame hgate hnone hsome =>
        cases hsince : since rid with
        | none =>
          exact ⟨fun _ => rfl, fun _ =>
            ⟨stored, hget, approved_of_passes hgate hsame (hnone hsince)⟩⟩
        | some review =>
          obtain ⟨hreview, hhash⟩ := hsome review hsince
          rw [Option.all_some, decide_eq_true_eq]
          constructor
          · rintro ⟨build, hbuild, found, hfound, happroved, _⟩
            cases hget.symm.trans hbuild
            cases hreview.symm.trans hfound
            exact happroved
          · exact fun happroved =>
              ⟨stored, hget, review, hreview, happroved, hhash.trans hsame.hash.symm⟩
    · next hother =>
      refine ⟨fun _ => rfl, fun _ rid' now' p heq hrequest => ?_⟩
      cases heq
      exact absurd hrequest (hother p)
  | _ => exact ⟨fun _ => rfl, fun _ _ _ _ heq => by cases heq⟩

/-- **Exactly when legal approval holds at every publication**: from a state without open requests,
all commits of publications and rollbacks in a run find an approval of the activated build exactly
when, at each of them, the last review committed on the build since the gate, if any, is an
approval. -/
theorem legal_approval_holds {w : World} (as : List Action) (hidle : w.requests.keys = []) :
    Along (withGhost step note) (fun s a _ => CommitsApproved s.1 a) (w, fun _ => none) as ↔
      Along (withGhost step note) (fun s a _ => noneRejectedSince s.1 s.2 a = true)
        (w, fun _ => none) as := by
  have hstep : ∀ s since a t, Sound s since → step s a = some t → Sound t (note s a since) :=
    fun _ _ _ _ hs h => hs.step h
  refine ghost_along_iff (I := Sound) (P := fun s _ a => CommitsApproved s a) hstep
    (fun _ _ _ _ hs _ => commitsApproved_iff hs) ?_
  intro rid s hget
  cases (Table.get_of_keys_nil hidle rid).symm.trans hget

/-! ## A review while Caddy is asked -/

/-- One candidate with a privacy notice. -/
def candidateWorld : World where
  builds := Table.empty.set 1
    ⟨.ready, some "b1", [("privacy", .str "Политика")], none, none, none⟩
  site := ⟨none, none⟩
  requests := Table.empty

def approval : BuildLegalReviewIn := ⟨.approved, "DOC-17", none, none⟩

def refusal : BuildLegalReviewIn :=
  ⟨.rejected, "DOC-18", some "Нет согласия", some "Добавьте форму согласия"⟩

def reviewTime : DateTime := ⟨⟨2026, 6, 1⟩, ⟨12, 0, 0, 0⟩, some .utc, by decide, by decide⟩

def laterTime : DateTime := ⟨⟨2026, 6, 1⟩, ⟨12, 5, 0, 0⟩, some .utc, by decide, by decide⟩

/-- The candidate is approved, its publication passes the gate, and another review of it is
committed before Caddy answers. -/
def reviewedWhileActivated (body : BuildLegalReviewIn) : List Action :=
  [.review 1 1 approval 5 reviewTime, .commitReview 1, .publish 2 1 0, .activate 2 true,
    .review 3 1 body 6 laterTime, .commitReview 3, .caddy 2 true]

/-- A second approval during the publication. -/
theorem legal_approval_holds_twice :
    candidateWorld.requests.keys = [] ∧
      Along (withGhost step note) (fun s a _ => CommitsApproved s.1 a)
        (candidateWorld, fun _ => none) (reviewedWhileActivated approval ++ [.commit 2 0]) :=
  ⟨rfl, (legal_approval_holds _ rfl).mpr (by decide +kernel)⟩

/-- A candidate whose rejection has been committed becomes active. -/
theorem legal_rejection_published :
    ∃ (w : World) (as : List Action), w.requests.keys = [] ∧ (exec step w as).isSome ∧
      ¬ Along (withGhost step note) (fun s a _ => CommitsApproved s.1 a) (w, fun _ => none) as := by
  have hfacts : (exec step candidateWorld (reviewedWhileActivated refusal)).any (fun w =>
      (step w (.commit 2 0)).isSome && match w.requests.get 2 with
        | some (.publishing p .agreed) => (w.builds.get p.id).all (fun build =>
          build.legalReview.all (fun review => decide (review.state ≠ "approved")))
        | _ => false) = true := by decide +kernel
  obtain ⟨w, hrun, hfacts⟩ := (Option.any_eq_true _ _).mp hfacts
  obtain ⟨hstep, hbad⟩ := Bool.and_eq_true_iff.mp hfacts
  obtain ⟨t, ht⟩ := Option.isSome_iff_exists.mp hstep
  refine ⟨candidateWorld, reviewedWhileActivated refusal ++ [.commit 2 0], rfl, ?_, fun h => ?_⟩
  · rw [exec_append, hrun, Option.bind_some, exec_cons, ht]
    rfl
  · have halong := (along_withGhost note (Q := fun w a _ => CommitsApproved w a)).mp h
    split at hbad
    · next p hrequest =>
      obtain ⟨build, hget, review, hreview, happroved, _⟩ :=
        halong.at hrun ht 2 0 p rfl hrequest
      rw [hget, Option.all_some, hreview, Option.all_some] at hbad
      exact of_decide_eq_true hbad happroved
    · cases hbad

end MegaPanel.LegalReview

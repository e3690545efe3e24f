import MegaPanel.Semantic.Model

set_option autoImplicit false

/-! # Expected versions of a collection

An update compares its expected version with what it has read, and writes that version plus one.
Nothing compares again when it commits. Two updates that read before either commits both go
through, and so does an update that was read before a submission commits.

What holds in every run (`Sound`): a collection never goes back to `draft`, and it has left `draft`
exactly when a submission has been committed. The rest needs that an update commits on the draft,
and on the version, that it has read (`current`); then the versions of a draft grow with every
update (`Tied`), and `collection_versions` follows.
-/

namespace MegaPanel.Semantic

open MegaPanel.Lib

/-! ## The history and the condition -/

/-- What a submission hands over for review. -/
structure Contents where
  name : String
  sourceRefs : SourceRefs
  members : List Member
  deriving DecidableEq

def World.contents (w : World) : Contents :=
  ⟨w.collection.name, w.collection.sourceRefs, w.members⟩

/-- The expected versions of the updates that have succeeded, and the contents of the collection
at the commit of each submission. -/
structure History where
  succeeded : List Nat
  submitted : List Contents
  deriving DecidableEq

def History.empty : History := ⟨[], []⟩

/-- A request with this work has been committed, and the world is `t`. -/
def History.commit (g : History) (t : World) : Work → History
  | .update _ body => { g with succeeded := g.succeeded ++ [body.version] }
  | .submit _ => { g with submitted := g.submitted ++ [t.contents] }
  | _ => g

def History.add (g : History) (w t : World) : Action → History
  | .commit rid => (w.pending.get rid).elim g (fun p => g.commit t p.work)
  | _ => g

def note (w : World) (a : Action) (g : History) : History :=
  match step w a with
  | some t => g.add w t a
  | none => g

/-- An update commits on the draft that it has read, in the version that it has read. -/
def current (w : World) : Action → Bool
  | .commit rid => (w.pending.get rid).all (fun p =>
    match p.work with
    | .update _ _ => decide (w.collection.state = .draft)
        && decide (w.collection.version = p.loaded.version)
    | _ => true)
  | _ => true

/-! ## Steps and requests on their way -/

variable {w t : World} {a : Action} {p : Pending} {c : Collection}

/-- What a step does. -/
inductive Move (w : World) : Action → World → Prop
  | start (rid : RequestId) (request : Request) (work : Work)
      (hstart : request.start w.collection = .ok work) :
      Move w (.start rid request) (w.setPending rid ⟨w.collection, work⟩)
  | readMembers (rid : RequestId) (now : Time) (loaded collection : Collection)
      (hp : w.pending.get rid = some ⟨loaded, .submitting⟩)
      (hsubmit : submitCollection loaded w.members now = .ok collection) :
      Move w (.readMembers rid now) (w.setPending rid ⟨loaded, .submit collection⟩)
  | commit (rid : RequestId) (p : Pending) (collection : Collection) (members : List Member)
      (hp : w.pending.get rid = some p) (hcommit : p.commit w = some (collection, members)) :
      Move w (.commit rid)
        (World.close { w with collection := collection, members := members } rid)
  | abort (rid : RequestId) : Move w (.abort rid) (w.close rid)

theorem step_move (h : step w a = some t) : Move w a t := by
  cases a with
  | start rid request =>
    simp only [step] at h
    split at h
    · cases hstart : request.start w.collection with
      | ok work =>
        rw [hstart] at h
        cases h
        exact .start rid request work hstart
      | error e =>
        rw [hstart] at h
        cases h
    · cases h
  | readMembers rid now =>
    obtain ⟨⟨loaded, work⟩, hp, h⟩ := Option.bind_eq_some_iff.mp h
    dsimp only at h
    split at h
    · next collection hsubmit =>
      cases h
      exact .readMembers rid now loaded collection hp hsubmit
    · cases h
  | commit rid =>
    obtain ⟨p, hp, h⟩ := Option.bind_eq_some_iff.mp h
    obtain ⟨⟨collection, members⟩, hcommit, rfl⟩ := Option.map_eq_some_iff.mp h
    exact .commit rid p collection members hp hcommit
  | abort rid =>
    obtain ⟨p, _, rfl⟩ := Option.map_eq_some_iff.mp h
    exact .abort rid

/-- What is known of a request on its way; `left` says that the collection has left `draft`. -/
inductive InFlight (left : Prop) : Pending → Prop
  | update (loaded : Collection) (body : Update) (name : String) (description : Option String)
      (sourceRefs : SourceRefs) (hdraft : loaded.state = .draft)
      (hversion : body.version = loaded.version) :
      InFlight left ⟨loaded, .update { loaded with
        name := name, description := description, sourceRefs := sourceRefs
        version := loaded.version + 1 } body⟩
  | submitting (loaded : Collection) (hdraft : loaded.state = .draft) :
      InFlight left ⟨loaded, .submitting⟩
  | submit (loaded : Collection) (now : Time) (hdraft : loaded.state = .draft) :
      InFlight left ⟨loaded, .submit { loaded with
        state := .review, submittedAt := some now, version := loaded.version + 1 }⟩
  | decision (loaded : Collection) (state : State) (user : UserId) (reason : Option String)
      (now : Time) (hleft : left) (hreview : loaded.state = .review) (hstate : state ≠ .draft) :
      InFlight left ⟨loaded, .decision { loaded with
        state := state, reviewedAt := some now, reviewedBy := some user
        decisionReason := reason }⟩

theorem InFlight.mono {left left' : Prop} (h : InFlight left p) (himp : left → left') :
    InFlight left' p := by
  cases h with
  | update loaded body name description refs hdraft hversion =>
    exact .update loaded body name description refs hdraft hversion
  | submitting loaded hdraft => exact .submitting loaded hdraft
  | submit loaded now hdraft => exact .submit loaded now hdraft
  | decision loaded state user reason now hleft hreview hstate =>
    exact .decision loaded state user reason now (himp hleft) hreview hstate

theorem inFlight_of_start {collection : Collection} {request : Request} {work : Work}
    (h : request.start collection = .ok work) :
    InFlight (collection.state ≠ .draft) ⟨collection, work⟩ := by
  cases request with
  | update body ctx =>
    simp only [Request.start, updateCollection] at h
    split at h
    · cases h
    · next hok =>
      rw [not_or, not_not, not_not] at hok
      cases hbody : validateInput body ctx with
      | error e =>
        rw [hbody] at h
        cases h
      | ok refs =>
        rw [hbody] at h
        cases h
        exact .update collection body _ _ refs hok.1 hok.2
  | submit =>
    simp only [Request.start, checkSubmittable] at h
    split at h
    · cases h
    · next hdraft =>
      cases h
      exact .submitting collection (not_not.mp hdraft)
  | approve user reason now =>
    simp only [Request.start, approveCollection] at h
    split at h
    · cases h
    · next hreview =>
      cases h
      rw [not_not] at hreview
      exact .decision collection .approved user _ now (by rw [hreview]; decide) hreview
        (by decide)
  | reject user reason now =>
    simp only [Request.start, rejectCollection] at h
    split at h
    · cases h
    split at h
    · cases h
    · next hreview =>
      cases h
      rw [not_not] at hreview
      exact .decision collection .rejected user _ now (by rw [hreview]; decide) hreview
        (by decide)

/-- What a commit does to the collection and to the members. -/
inductive Committed (w : World) : Pending → Collection → List Member → Prop
  | update (loaded collection c : Collection) (body : Update) (members : List Member)
      (hdraft : loaded.state = .draft) (hversion : body.version = loaded.version)
      (hwritten : c.version = loaded.version + 1) (hstate : c.state = w.collection.state) :
      Committed w ⟨loaded, .update collection body⟩ c members
  | submit (loaded collection c : Collection) (hstate : c.state = .review)
      (hname : c.name = w.collection.name) (hrefs : c.sourceRefs = w.collection.sourceRefs) :
      Committed w ⟨loaded, .submit collection⟩ c w.members
  | decision (loaded collection c : Collection) (hleft : w.collection.state ≠ .draft)
      (hstate : c.state ≠ .draft) (hname : c.name = w.collection.name)
      (hrefs : c.sourceRefs = w.collection.sourceRefs) :
      Committed w ⟨loaded, .decision collection⟩ c w.members

theorem committed_of_inFlight {members : List Member}
    (hp : InFlight (w.collection.state ≠ .draft) p) (h : p.commit w = some (c, members)) :
    Committed w p c members := by
  cases hp with
  | update loaded body name description refs hdraft hversion =>
    cases h
    refine .update _ _ _ _ _ hdraft hversion ?_ ?_
    · have hne : loaded.version + 1 ≠ loaded.version := by omega
      simp only [Collection.flush, writeCol_dirty hne]
    · simp only [Collection.flush, writeCol_clean]
  | submitting loaded hdraft => cases h
  | submit loaded now hdraft =>
    cases h
    refine .submit _ _ _ ?_ ?_ ?_ <;> simp only [Collection.flush, writeCol_clean]
    exact writeCol_dirty (by rw [hdraft]; decide) _
  | decision loaded state user reason now hleft hreview hstate =>
    cases h
    refine .decision _ _ _ hleft ?_ ?_ ?_ <;> simp only [Collection.flush, writeCol_clean]
    -- A decision that repeats the state it has read leaves the stored one.
    rw [writeCol]
    split
    · exact hleft
    · exact hstate

/-! ## What holds in every run -/

variable {g : History} {rid : RequestId}

structure Sound (w : World) (g : History) : Prop where
  left : w.collection.state = .draft ↔ g.submitted = []
  flight : ∀ rid p, w.pending.get rid = some p → InFlight (w.collection.state ≠ .draft) p

theorem Sound.created (h : Created w) : Sound w .empty where
  left := ⟨fun _ => rfl, fun _ => h.state⟩
  flight := by
    intro rid p hp
    rw [h.pending] at hp
    cases hp

/-- A request changes what it has in memory. -/
theorem Sound.setPending (hs : Sound w g) (hp : InFlight (w.collection.state ≠ .draft) p) :
    Sound (w.setPending rid p) g where
  left := hs.left
  flight := Table.forall_set hs.flight hp

/-- The end of a transaction that leaves a collection which has not gone back to `draft`. -/
theorem Sound.close {w' : World} {g' : History} (hs : Sound w g) (hpending : w'.pending = w.pending)
    (hstate : w.collection.state ≠ .draft → w'.collection.state ≠ .draft)
    (hleft : w'.collection.state = .draft ↔ g'.submitted = []) : Sound (w'.close rid) g' where
  left := hleft
  flight := by
    intro other q hq
    have hold : w.pending.get other = some q := by
      rw [← hpending]
      exact (Table.get_erase_eq_some.mp hq).2
    exact (hs.flight other q hold).mono hstate

theorem add_commit (hp : w.pending.get rid = some p) :
    g.add w t (.commit rid) = g.commit t p.work := by
  rw [History.add, hp, Option.elim_some]

theorem Sound.step (hs : Sound w g) (h : Semantic.step w a = some t) : Sound t (g.add w t a) := by
  cases step_move h with
  | start rid request work hstart => exact hs.setPending (inFlight_of_start hstart)
  | readMembers rid now loaded collection hp hsubmit =>
    refine hs.setPending ?_
    simp only [submitCollection] at hsubmit
    split_ifs at hsubmit
    cases hsubmit
    cases hs.flight rid _ hp with
    | submitting _ hdraft => exact .submit loaded now hdraft
  | abort rid => exact hs.close rfl id hs.left
  | commit rid p collection members hp hcommit =>
    rw [add_commit hp]
    cases committed_of_inFlight (hs.flight rid p hp) hcommit with
    | update loaded _ _ body _ hdraft hversion hwritten hstate =>
      refine hs.close rfl (fun hleft => ?_) ?_
      · rw [hstate]
        exact hleft
      · rw [hstate]
        exact hs.left
    | submit loaded _ _ hstate hname hrefs =>
      refine hs.close rfl (fun _ => ?_) ⟨fun hdraft => ?_, fun hnil => ?_⟩
      · rw [hstate]
        decide
      · rw [hstate] at hdraft
        cases hdraft
      · simp [History.commit] at hnil
    | decision loaded _ _ hleft hstate hname hrefs =>
      refine hs.close rfl (fun _ => hstate) ⟨fun hdraft => absurd hdraft hstate, fun hnil => ?_⟩
      exact absurd (hs.left.mpr hnil) hleft

/-! ## What the condition adds -/

structure Tied (w : World) (g : History) : Prop where
  once : g.succeeded.Nodup
  below : w.collection.state = .draft → ∀ v ∈ g.succeeded, v < w.collection.version
  contents : ∀ c ∈ g.submitted, c = w.contents

theorem Tied.created (w : World) : Tied w .empty where
  once := List.nodup_nil
  below := fun _ => nofun
  contents := nofun

theorem Tied.commit {members : List Member} (hs : Sound w g) (hg : Tied w g)
    (hp : w.pending.get rid = some p) (hcommit : p.commit w = some (c, members))
    (hcond : current w (.commit rid) = true) :
    Tied (World.close { w with collection := c, members := members } rid)
      (g.commit (World.close { w with collection := c, members := members } rid) p.work) := by
  rw [current, hp, Option.all_some] at hcond
  cases committed_of_inFlight (hs.flight rid p hp) hcommit with
  | update loaded _ _ body _ hdraft hversion hwritten hstate =>
    simp only [Bool.and_eq_true, decide_eq_true_eq] at hcond
    have hbelow := hg.below hcond.1
    have hnew : body.version ∉ g.succeeded := fun hmem => by
      have hlt := hbelow _ hmem
      omega
    refine ⟨?_, fun _ v hv => ?_, ?_⟩
    · exact List.nodup_append.mpr ⟨hg.once, List.nodup_singleton _, fun a ha b hb => by
        rw [List.mem_singleton] at hb
        rintro rfl
        exact hnew (hb ▸ ha)⟩
    · show v < c.version
      rcases List.mem_append.mp hv with hold | hself
      · have hlt := hbelow v hold
        omega
      · have heq : v = body.version := List.mem_singleton.mp hself
        omega
    · rw [History.commit, hs.left.mp hcond.1]
      exact nofun
  | submit loaded _ _ hstate hname hrefs =>
    refine ⟨hg.once, fun hback => ?_, fun contents hmem => ?_⟩
    · exact absurd (hstate.symm.trans hback) (by decide)
    · rcases List.mem_append.mp hmem with hold | hself
      · rw [hg.contents contents hold]
        simp only [World.contents, World.close, hname, hrefs]
      · exact List.mem_singleton.mp hself
  | decision loaded _ _ hleft hstate hname hrefs =>
    refine ⟨hg.once, fun hback => absurd hback hstate, fun contents hmem => ?_⟩
    rw [hg.contents contents hmem]
    simp only [World.contents, World.close, hname, hrefs]

theorem Tied.step (hs : Sound w g) (hg : Tied w g) (hcond : current w a = true)
    (h : Semantic.step w a = some t) : Tied t (g.add w t a) := by
  cases step_move h with
  | start | readMembers | abort => exact ⟨hg.once, hg.below, hg.contents⟩
  | commit rid p collection members hp hcommit =>
    rw [add_commit hp]
    exact hg.commit hs hp hcommit hcond

/-! ## Runs -/

/-- **Expected versions.** In every run whose updates commit on the draft and the version that they
have read, no two updates of the same expected version succeed, and a collection that has left
`draft` has the name, the source references and the members of its submission. -/
theorem collection_versions {w t : World} {g : History} {run : List Action} (h : Created w)
    (hcond : Along step (fun s a _ => current s a = true) w run)
    (hrun : exec (withGhost step note) (w, .empty) run = some (t, g)) :
    g.succeeded.Nodup ∧
      (t.collection.state ≠ .draft → g.submitted ≠ [] ∧ ∀ c ∈ g.submitted, c = t.contents) := by
  have hkept : ∀ (s : World × History) (a : Action) (u : World × History),
      Sound s.1 s.2 ∧ Tied s.1 s.2 → current s.1 a = true →
      withGhost step note s a = some u → Sound u.1 u.2 ∧ Tied u.1 u.2 := by
    rintro s a ⟨u, g'⟩ ⟨hs, hg⟩ hc hstep
    obtain ⟨hu, hg'⟩ := withGhost_eq_some.mp hstep
    have hnote : note s.1 a s.2 = s.2.add s.1 u a := by
      simp only [note, hu]
    rw [hnote] at hg'
    cases hg'
    exact ⟨hs.step hu, hg.step hs hc hu⟩
  have hcond' := (along_withGhost note (Q := fun s a _ => current s a = true)
    (g := History.empty)).mpr hcond
  obtain ⟨hs, hg⟩ := exec_invariant hkept ⟨Sound.created h, Tied.created w⟩ hcond' hrun
  refine ⟨hg.once, fun hleft => ⟨fun hnil => hleft (hs.left.mpr hnil), hg.contents⟩⟩

/-! ## One editor, and two -/

def keyword : Member := ⟨7, none, none, some 1, none, []⟩

def draftWorld : World where
  collection := ⟨"Keywords", none, .draft, 1, ⟨[], []⟩, none, none, none, none⟩
  members := []
  pending := Table.empty

def rename (name : String) (version : Nat) : Request :=
  .update ⟨name, none, [], [], [keyword], version⟩ ⟨[7], [], [], []⟩

/-- Two edits one after the other, a submission and its approval. -/
def oneEditor : List Action :=
  [.start 1 (rename "First" 1), .commit 1, .start 2 (rename "Second" 2), .commit 2,
    .start 3 .submit, .readMembers 3 10, .commit 3, .start 4 (.approve 5 none 20), .commit 4]

/-- Both editors have read version 1. -/
def twoEditors : List Action :=
  [.start 1 (rename "First" 1), .start 2 (rename "Second" 1), .commit 1, .commit 2]

theorem collection_versions_oneEditor :
    ∃ t g, exec (withGhost step note) (draftWorld, .empty) oneEditor = some (t, g)
      ∧ t.collection.state = .approved ∧ g.succeeded = [1, 2] ∧ g.succeeded.Nodup
      ∧ g.submitted ≠ [] ∧ ∀ c ∈ g.submitted, c = t.contents := by
  have hsome : (exec (withGhost step note) (draftWorld, .empty) oneEditor).isSome := by
    decide +kernel
  obtain ⟨⟨t, g⟩, hrun⟩ := Option.isSome_iff_exists.mp hsome
  have hend : (exec (withGhost step note) (draftWorld, .empty) oneEditor).map
      (fun x => (x.1.collection.state, x.2.succeeded)) = some (.approved, [1, 2]) := by
    decide +kernel
  rw [hrun] at hend
  simp only [Option.map_some, Option.some.injEq, Prod.mk.injEq] at hend
  obtain ⟨honce, hcontents⟩ := collection_versions ⟨rfl, fun _ => rfl⟩ (by decide +kernel) hrun
  exact ⟨t, g, hrun, hend.1, hend.2, honce, hcontents (by rw [hend.1]; decide)⟩

/-- Two updates of version 1 succeed; the second one overwrites the first. -/
theorem collection_versions_twoEditors :
    Created draftWorld ∧
      ∃ t g, exec (withGhost step note) (draftWorld, .empty) twoEditors = some (t, g)
        ∧ ¬ g.succeeded.Nodup := by
  refine ⟨⟨rfl, fun _ => rfl⟩, ?_⟩
  have hsome : (exec (withGhost step note) (draftWorld, .empty) twoEditors).isSome := by
    decide +kernel
  obtain ⟨⟨t, g⟩, hrun⟩ := Option.isSome_iff_exists.mp hsome
  have hend : (exec (withGhost step note) (draftWorld, .empty) twoEditors).map
      (fun x => x.2.succeeded) = some [1, 1] := by
    decide +kernel
  rw [hrun] at hend
  simp only [Option.map_some, Option.some.injEq] at hend
  exact ⟨t, g, hrun, by rw [hend]; decide⟩

end MegaPanel.Semantic

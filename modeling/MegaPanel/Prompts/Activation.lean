import MegaPanel.Prompts.Model

set_option autoImplicit false

/-! # Which prompt is active

An activation clears the revisions that its `UPDATE` finds active and makes its own one active. No
index says that there is one active revision at most, and no request looks at its revision again
before it writes.

What holds in every run (`Sound`): a revision that is active has been approved, and a row that an
activation or a rollback has changed stays as it was, and active, up to the end of that
transaction. The rest depends on what has changed since a request has read its revision
(`undisturbed`): with that, a rejected revision stays rejected and inactive, and one revision at
most is active (`Tied`).
-/

namespace MegaPanel.Prompts

open MegaPanel.Lib

/-! ## The history and the condition -/

/-- The revisions whose approval or rejection has been committed. -/
structure History where
  approved : List RevisionId
  rejected : List RevisionId
  deriving DecidableEq

def History.empty : History := ⟨[], []⟩

def History.commit (g : History) (kind : Kind) (id : RevisionId) : History :=
  match kind with
  | .approve => { g with approved := g.approved ++ [id] }
  | .reject => { g with rejected := g.rejected ++ [id] }
  | _ => g

def History.add (g : History) (w : World) : Action → History
  | .commit rid => (w.pending.get rid).elim g (fun p =>
    p.own.elim g (fun own => g.commit p.kind own.id))
  | _ => g

def note (w : World) (a : Action) (g : History) : History :=
  match step w a with
  | some _ => g.add w a
  | none => g

/-- What a request asks of its revision when it commits. -/
def Pending.agrees (p : Pending) (w : World) (own : Own) : Bool :=
  let rejected := (w.entries.get own.id).any (fun entry => decide (entry.state = .rejected))
  match p.kind with
  | .submit | .approve => !rejected
  | .reject => !w.isActive own.id
  | .activate => !rejected
      && (activeRows w.entries).all (fun r => decide (r.1 = own.id) || decide (r.1 ∈ p.cleared))
  | .rollback => true

/-- A submission, an approval and an activation do not commit on a rejected revision, a rejection
does not commit on an active one, and an activation has cleared every other active one. -/
def undisturbed (w : World) : Action → Bool
  | .commit rid => (w.pending.get rid).all (fun p => p.own.all (fun own => p.agrees w own))
  | _ => true

/-! ## Steps -/

variable {w t : World} {a : Action} {rid other : RequestId} {id : RevisionId} {p : Pending}

/-- What a step does. -/
inductive Move (w : World) : Action → World → Prop
  | create (id : RevisionId) (user : UserId) (template baselineHash : String) (entry : Entry)
      (hnew : w.entries.get id = none) (hdraft : entry.state = .draft)
      (hinactive : entry.isActive = false) :
      Move w (.create id user template baselineHash) { w with entries := w.entries.set id entry }
  | start (rid : RequestId) (request : Request) (p : Pending)
      (hfree : w.pending.get rid = none) (hstart : request.start w = .ok p) :
      Move w (.start rid request) (w.setPending rid p)
  | scan (rid : RequestId) (p : Pending) (ids : List RevisionId)
      (hp : w.pending.get rid = some p) (hidle : p.clearing = .idle) :
      Move w (.scan rid) (w.setPending rid { p with clearing := .scanned ids })
  | clear (rid : RequestId) (p : Pending) (ids : List RevisionId)
      (hp : w.pending.get rid = some p) (hscanned : p.clearing = .scanned ids)
      (hfree : ∀ id ∈ ids, w.locked rid id = false) :
      Move w (.clear rid)
        (w.setPending rid { p with clearing := .done (ids.filter (w.isActive ·)) })
  | commit (rid : RequestId) (p : Pending) (hp : w.pending.get rid = some p)
      (hfree : ∀ own, p.own = some own → w.locked rid own.id = false) :
      Move w (.commit rid) ⟨w.entries.mapRows p.row, w.pending.erase rid⟩
  | abort (rid : RequestId) : Move w (.abort rid) { w with pending := w.pending.erase rid }

theorem step_move (h : step w a = some t) : Move w a t := by
  cases a with
  | create id user template baselineHash =>
    simp only [step] at h
    split at h
    · next hnew =>
      cases h
      exact .create id user template baselineHash _ hnew rfl rfl
    · cases h
  | start rid request =>
    simp only [step] at h
    split at h
    · next hfree =>
      split at h
      · next p hstart =>
        cases h
        exact .start rid request p hfree hstart
      · cases h
    · cases h
  | scan rid =>
    obtain ⟨p, hp, h⟩ := Option.bind_eq_some_iff.mp h
    split at h
    · next hidle =>
      cases h
      exact .scan rid p _ hp hidle
    · cases h
  | clear rid =>
    obtain ⟨p, hp, h⟩ := Option.bind_eq_some_iff.mp h
    split at h
    · next ids hscanned =>
      split_ifs at h with hfree
      cases h
      rw [Bool.not_eq_true, List.any_eq_false] at hfree
      exact .clear rid p ids hp hscanned (fun id hid => by simpa using hfree id hid)
    · cases h
  | commit rid =>
    obtain ⟨p, hp, h⟩ := Option.bind_eq_some_iff.mp h
    split at h
    · split_ifs at h with hfree
      cases h
      refine .commit rid p hp (fun own hown => ?_)
      rw [hown, Option.any_some, Bool.not_eq_true] at hfree
      exact hfree
    · cases h
  | abort rid =>
    obtain ⟨p, _, rfl⟩ := Option.map_eq_some_iff.mp h
    exact .abort rid

theorem not_locked (h : w.locked rid id = false) (hp : w.pending.get other = some p)
    (hid : id ∈ p.cleared) : other = rid := by
  by_contra hne
  rw [World.locked, List.any_eq_false] at h
  refine h (other, p) (Table.mem_rows.mpr hp) ?_
  simp [hne, hid]

theorem isActive_eq_true :
    w.isActive id = true ↔ ∃ entry, w.entries.get id = some entry ∧ entry.isActive = true := by
  rw [World.isActive, Option.any_eq_true]

/-! ## What a request writes -/

variable {g : History} {own : Own}

/-- The state that a request gives to its revision. -/
def Kind.target : Kind → State
  | .submit => .review
  | .approve => .approved
  | .reject => .rejected
  | .activate => .active
  | .rollback => .superseded

/-- What is known of the revision of a request on its way. -/
structure OwnOk (g : History) (kind : Kind) (own : Own) : Prop where
  writes : kind ≠ .rollback
  loaded : own.loaded.state ≠ kind.target
  current : own.current.state = kind.target
  activates : kind = .activate →
    own.loaded.isActive = false ∧ own.current.isActive = true ∧ own.id ∈ g.approved
  keeps : kind ≠ .activate → own.current.isActive = true → own.loaded.isActive = true

theorem OwnOk.mono {g' : History} {kind : Kind} (h : OwnOk g kind own)
    (hsub : ∀ id ∈ g.approved, id ∈ g'.approved) : OwnOk g' kind own where
  writes := h.writes
  loaded := h.loaded
  current := h.current
  activates := fun hkind =>
    let ⟨hloaded, hcurrent, hid⟩ := h.activates hkind
    ⟨hloaded, hcurrent, hsub _ hid⟩
  keeps := h.keeps

/-- The row of the revision after the commit has the state that the request gives. -/
theorem OwnOk.state {kind : Kind} (h : OwnOk g kind own) (entry : Entry) :
    (Entry.flush own.loaded own.current entry).state = kind.target := by
  have hdirty : own.current.state ≠ own.loaded.state := by
    rw [h.current]
    exact h.loaded.symm
  simp only [Entry.flush, writeCol_dirty hdirty]
  exact h.current

/-- Nothing but an activation makes a revision active. -/
theorem OwnOk.isActive {kind : Kind} {entry : Entry} (h : OwnOk g kind own)
    (hkind : kind ≠ .activate)
    (hactive : (Entry.flush own.loaded own.current entry).isActive = true) :
    entry.isActive = true := by
  have hflag : writeCol own.loaded.isActive own.current.isActive entry.isActive = true := hactive
  rw [writeCol] at hflag
  split at hflag
  · exact hflag
  · next hne => exact absurd (hflag.trans (h.keeps hkind hflag).symm) hne

theorem row_none (h : p.own = none) (id : RevisionId) (entry : Entry) :
    p.row id entry = if id ∈ p.cleared then entry.clear else entry := by
  simp only [Pending.row, h]

theorem row_own (h : p.own = some own) (entry : Entry) :
    p.row own.id entry = Entry.flush own.loaded own.current
      (if own.id ∈ p.cleared then entry.clear else entry) := by
  simp only [Pending.row, h, if_pos]

theorem row_other (h : ∀ own, p.own = some own → id ≠ own.id) (entry : Entry) :
    p.row id entry = if id ∈ p.cleared then entry.clear else entry := by
  cases hown : p.own with
  | none => exact row_none hown id entry
  | some own => simp only [Pending.row, hown, if_neg (h own hown)]

/-! ## Requests that start -/

theorem ownOk_withRevision {kind : Kind} {change : Entry → Except HttpError Entry}
    (h : withRevision w id kind change = .ok p)
    (hchange : ∀ entry current, change entry = .ok current → OwnOk g kind ⟨id, entry, current⟩) :
    p.cleared = [] ∧
      ∀ own, p.own = some own → OwnOk g p.kind own ∧ (w.entries.get own.id).isSome := by
  simp only [withRevision] at h
  split at h
  · cases h
  · next entry hentry =>
    cases hcurrent : change entry with
    | error e =>
      rw [hcurrent] at h
      cases h
    | ok current =>
      rw [hcurrent] at h
      cases h
      exact ⟨rfl, fun own hown => by
        cases hown
        exact ⟨hchange entry current hcurrent, by rw [hentry]; rfl⟩⟩

theorem checkActivation_ok {entry : Entry} {ctx : ActivateContext}
    (h : checkActivation entry ctx = .ok ()) : entry.state = .approved := by
  simp only [checkActivation] at h
  split at h
  · cases h
  split at h
  · cases h
  · next happroved => exact not_not.mp happroved

theorem synchronized_isActive (entry : Entry) : (synchronized entry).isActive = false := by
  rw [synchronized]
  split
  · rfl
  · next h => exact Bool.not_eq_true _ ▸ h

theorem synchronized_state {entry : Entry} (h : entry.state = .approved) :
    (synchronized entry).state ≠ .active := by
  rw [synchronized]
  split
  · exact nofun
  · rw [h]
    exact nofun

theorem ownOk_of_start {request : Request}
    (happroved : ∀ id entry, w.entries.get id = some entry → entry.state = .approved →
      id ∈ g.approved) (h : request.start w = .ok p) :
    p.cleared = [] ∧
      ∀ own, p.own = some own → OwnOk g p.kind own ∧ (w.entries.get own.id).isSome := by
  cases request with
  | submit id now =>
    refine ownOk_withRevision h (fun entry current hsubmit => ?_)
    simp only [submitRevision] at hsubmit
    split_ifs at hsubmit with hstate
    cases hsubmit
    rw [not_not] at hstate
    exact ⟨nofun, by rw [hstate]; exact nofun, rfl, nofun, fun _ hactive => hactive⟩
  | approve id user now =>
    refine ownOk_withRevision h (fun entry current happrove => ?_)
    simp only [approveRevision] at happrove
    split_ifs at happrove with hstate
    cases happrove
    rw [not_not] at hstate
    exact ⟨nofun, by rw [hstate]; exact nofun, rfl, nofun, fun _ hactive => hactive⟩
  | reject id user reason now =>
    simp only [Request.start] at h
    split at h
    · cases h
    refine ownOk_withRevision h (fun entry current hreject => ?_)
    simp only [rejectRevision] at hreject
    split_ifs at hreject with hstate
    cases hreject
    rw [not_not] at hstate
    exact ⟨nofun, by rw [hstate]; exact nofun, rfl, nofun, fun _ => nofun⟩
  | activate id ctx =>
    simp only [Request.start] at h
    split at h
    · cases h
    · next entry hentry =>
      cases hcheck : checkActivation entry ctx with
      | error e =>
        rw [hcheck] at h
        cases h
      | ok =>
        rw [hcheck] at h
        cases h
        have hstate := checkActivation_ok hcheck
        refine ⟨rfl, fun own hown => ?_⟩
        cases hown
        refine ⟨⟨nofun, synchronized_state hstate, rfl, fun _ => ?_,
          fun hkind => absurd rfl hkind⟩, by rw [hentry]; rfl⟩
        exact ⟨synchronized_isActive entry, rfl, happroved id entry hentry hstate⟩
  | rollback baseline =>
    cases baseline with
    | none => cases h
    | some b =>
      cases h
      exact ⟨rfl, fun own hown => by cases hown⟩

/-! ## What holds in every run -/

structure Sound (w : World) (g : History) : Prop where
  approved : ∀ id entry, w.entries.get id = some entry →
    entry.state = .approved ∨ entry.isActive = true → id ∈ g.approved
  own : ∀ rid p own, w.pending.get rid = some p → p.own = some own → OwnOk g p.kind own
  known : ∀ rid p own, w.pending.get rid = some p → p.own = some own →
    (w.entries.get own.id).isSome
  cleared : ∀ rid p id, w.pending.get rid = some p → id ∈ p.cleared → w.isActive id = true
  exclusive : ∀ rid p rid' p' id, w.pending.get rid = some p → w.pending.get rid' = some p' →
    id ∈ p.cleared → id ∈ p'.cleared → rid = rid'

theorem Sound.created (h : Created w) : Sound w .empty where
  approved := by
    rintro id entry hentry (hstate | hactive)
    · rw [(h.entries id entry hentry).1] at hstate
      cases hstate
    · rw [(h.entries id entry hentry).2] at hactive
      cases hactive
  own := by
    intro rid p own hp
    rw [h.pending] at hp
    cases hp
  known := by
    intro rid p own hp
    rw [h.pending] at hp
    cases hp
  cleared := by
    intro rid p id hp
    rw [h.pending] at hp
    cases hp
  exclusive := by
    intro rid p rid' p' id hp
    rw [h.pending] at hp
    cases hp

theorem add_commit (hp : w.pending.get rid = some p) :
    g.add w (.commit rid) = p.own.elim g (fun own => g.commit p.kind own.id) := by
  rw [History.add, hp, Option.elim_some]

theorem mem_approved_add (h : id ∈ g.approved) : id ∈ (g.add w a).approved := by
  cases a with
  | commit rid =>
    simp only [History.add]
    cases w.pending.get rid with
    | none => exact h
    | some p =>
      simp only [Option.elim_some]
      cases p.own with
      | none => exact h
      | some own =>
        simp only [Option.elim_some, History.commit]
        split
        · exact List.mem_append_left _ h
        · exact h
        · exact h
  | _ => exact h

/-- A request on its way changes what it has in memory, or what it has locked. -/
theorem Sound.setPending (hs : Sound w g)
    (hown : ∀ own, p.own = some own → OwnOk g p.kind own ∧ (w.entries.get own.id).isSome)
    (hcleared : ∀ id ∈ p.cleared, w.isActive id = true ∧ w.locked rid id = false) :
    Sound (w.setPending rid p) g where
  approved := hs.approved
  own := by
    intro other q own hq
    rcases Table.get_set_eq_some.mp hq with ⟨_, rfl⟩ | ⟨_, hold⟩
    · exact fun h => (hown own h).1
    · exact hs.own other q own hold
  known := by
    intro other q own hq
    rcases Table.get_set_eq_some.mp hq with ⟨_, rfl⟩ | ⟨_, hold⟩
    · exact fun h => (hown own h).2
    · exact hs.known other q own hold
  cleared := by
    intro other q id hq hid
    rcases Table.get_set_eq_some.mp hq with ⟨_, rfl⟩ | ⟨_, hold⟩
    · exact (hcleared id hid).1
    · exact hs.cleared other q id hold hid
  exclusive := by
    intro other q other' q' id hq hq' hid hid'
    rcases Table.get_set_eq_some.mp hq with ⟨rfl, rfl⟩ | ⟨_, hold⟩
    · rcases Table.get_set_eq_some.mp hq' with ⟨rfl, rfl⟩ | ⟨_, hold'⟩
      · rfl
      · exact (not_locked (hcleared id hid).2 hold' hid').symm
    · rcases Table.get_set_eq_some.mp hq' with ⟨rfl, rfl⟩ | ⟨_, hold'⟩
      · exact not_locked (hcleared id hid').2 hold hid
      · exact hs.exclusive other q other' q' id hold hold' hid hid'

/-- A row that another transaction has locked stays as it is. -/
theorem row_locked {q : Pending} (hs : Sound w g) (hp : w.pending.get rid = some p)
    (hfree : ∀ own, p.own = some own → w.locked rid own.id = false)
    (hq : w.pending.get other = some q) (hid : id ∈ q.cleared) (hne : other ≠ rid) (entry : Entry) :
    p.row id entry = entry := by
  have hown : ∀ own, p.own = some own → id ≠ own.id := by
    rintro own hown rfl
    exact hne (not_locked (hfree own hown) hq hid)
  have hcleared : id ∉ p.cleared := fun hmem => hne (hs.exclusive other q rid p id hq hp hid hmem)
  rw [row_other hown, if_neg hcleared]

/-- What is known of a row after a commit. -/
theorem approved_row {entry : Entry} (hs : Sound w g) (hp : w.pending.get rid = some p)
    (hentry : w.entries.get id = some entry)
    (h : (p.row id entry).state = .approved ∨ (p.row id entry).isActive = true) :
    id ∈ (g.add w (.commit rid)).approved := by
  have hbase : ∀ e : Entry, e = (if id ∈ p.cleared then entry.clear else entry) →
      e.state = .approved ∨ e.isActive = true → id ∈ g.approved := by
    rintro e rfl he
    split at he
    · rcases he with hstate | hactive
      · cases hstate
      · cases hactive
    · exact hs.approved id entry hentry he
  by_cases hother : ∀ own, p.own = some own → id ≠ own.id
  · rw [row_other hother] at h
    exact mem_approved_add (hbase _ rfl h)
  push Not at hother
  obtain ⟨own, hown, rfl⟩ := hother
  have hok := hs.own rid p own hp hown
  rw [row_own hown] at h
  rcases h with hstate | hactive
  · rw [hok.state] at hstate
    have hkind : p.kind = .approve := by
      cases hk : p.kind <;> rw [hk] at hstate <;> first | rfl | cases hstate
    rw [add_commit hp, hown, Option.elim_some, hkind]
    exact List.mem_append_right _ (List.mem_singleton_self _)
  · by_cases hkind : p.kind = .activate
    · exact mem_approved_add (hok.activates hkind).2.2
    · exact mem_approved_add (hbase _ rfl (.inr (hok.isActive hkind hactive)))

theorem Sound.commit (hs : Sound w g) (hp : w.pending.get rid = some p)
    (hfree : ∀ own, p.own = some own → w.locked rid own.id = false) :
    Sound ⟨w.entries.mapRows p.row, w.pending.erase rid⟩ (g.add w (.commit rid)) where
  approved := by
    intro id entry' hentry' h
    obtain ⟨entry, hentry, rfl⟩ := Option.map_eq_some_iff.mp hentry'
    exact approved_row hs hp hentry h
  own := by
    intro other q own hq hown
    have hold := (Table.get_erase_eq_some.mp hq).2
    exact (hs.own other q own hold hown).mono (fun _ => mem_approved_add)
  known := by
    intro other q own hq hown
    rw [Table.get_mapRows, Option.isSome_map]
    exact hs.known other q own (Table.get_erase_eq_some.mp hq).2 hown
  cleared := by
    intro other q id hq hid
    obtain ⟨hne, hold⟩ := Table.get_erase_eq_some.mp hq
    obtain ⟨entry, hentry, hactive⟩ := isActive_eq_true.mp (hs.cleared other q id hold hid)
    refine isActive_eq_true.mpr ⟨entry, ?_, hactive⟩
    rw [Table.get_mapRows, hentry, Option.map_some, row_locked hs hp hfree hold hid hne]
  exclusive := by
    intro other q other' q' id hq hq'
    exact hs.exclusive other q other' q' id (Table.get_erase_eq_some.mp hq).2
      (Table.get_erase_eq_some.mp hq').2

theorem Sound.step (hs : Sound w g) (h : Prompts.step w a = some t) : Sound t (g.add w a) := by
  cases step_move h with
  | create id user template baselineHash entry hnew hdraft hinactive =>
    refine ⟨fun j e he hj => ?_, hs.own, fun rid p own hp hown => ?_, fun rid p j hp hj => ?_,
      hs.exclusive⟩
    · rcases Table.get_set_eq_some.mp he with ⟨_, rfl⟩ | ⟨_, hold⟩
      · rw [hdraft, hinactive] at hj
        rcases hj with hstate | hactive
        · cases hstate
        · cases hactive
      · exact hs.approved j e hold hj
    · rw [Table.get_set]
      split
      · rfl
      · exact hs.known rid p own hp hown
    · obtain ⟨e, he, hactive⟩ := isActive_eq_true.mp (hs.cleared rid p j hp hj)
      have hne : j ≠ id := by
        rintro rfl
        rw [hnew] at he
        cases he
      exact isActive_eq_true.mpr ⟨e, by rw [Table.get_set_ne _ hne, he], hactive⟩
  | start rid request p hfree hstart =>
    obtain ⟨hnil, hown⟩ := ownOk_of_start
      (fun id entry hentry hstate => hs.approved id entry hentry (.inl hstate)) hstart
    exact hs.setPending hown (by rw [hnil]; exact nofun)
  | scan rid p ids hp hidle =>
    exact hs.setPending (fun own hown => ⟨hs.own rid p own hp hown, hs.known rid p own hp hown⟩)
      nofun
  | clear rid p ids hp hscanned hfree =>
    refine hs.setPending
      (fun own hown => ⟨hs.own rid p own hp hown, hs.known rid p own hp hown⟩) (fun id hid => ?_)
    obtain ⟨hmem, hactive⟩ := List.mem_filter.mp hid
    exact ⟨hactive, hfree id hmem⟩
  | commit rid p hp hfree => exact hs.commit hp hfree
  | abort rid =>
    exact ⟨hs.approved, fun other q own hq => hs.own other q own (Table.get_erase_eq_some.mp hq).2,
      fun other q own hq => hs.known other q own (Table.get_erase_eq_some.mp hq).2,
      fun other q id hq => hs.cleared other q id (Table.get_erase_eq_some.mp hq).2,
      fun other q other' q' id hq hq' => hs.exclusive other q other' q' id
        (Table.get_erase_eq_some.mp hq).2 (Table.get_erase_eq_some.mp hq').2⟩

/-! ## What the condition adds -/

structure Tied (w : World) (g : History) : Prop where
  single : ∀ id id', w.isActive id = true → w.isActive id' = true → id = id'
  rejected : ∀ id ∈ g.rejected, ∃ entry, w.entries.get id = some entry
    ∧ entry.state = .rejected ∧ entry.isActive = false

theorem Tied.created (h : Created w) : Tied w .empty where
  single := by
    intro id id' hactive
    obtain ⟨entry, hentry, hactive⟩ := isActive_eq_true.mp hactive
    rw [(h.entries id entry hentry).2] at hactive
    cases hactive
  rejected := nofun

/-- A step that leaves the revisions. -/
theorem Tied.same (hg : Tied w g) (h : t.entries = w.entries) : Tied t g where
  single := by
    simp only [World.isActive, h]
    exact hg.single
  rejected := by rw [h]; exact hg.rejected

/-- A row that is active after a commit has been so before, and stays, or the request is the
activation of it. -/
theorem active_row {entry : Entry} (hs : Sound w g) (hp : w.pending.get rid = some p)
    (hactive : (p.row id entry).isActive = true) :
    (entry.isActive = true ∧ id ∉ p.cleared) ∨
      ∃ own, p.own = some own ∧ p.kind = .activate ∧ id = own.id := by
  have hbase : (if id ∈ p.cleared then entry.clear else entry).isActive = true →
      entry.isActive = true ∧ id ∉ p.cleared := by
    intro he
    split at he
    · cases he
    · next hnot => exact ⟨he, hnot⟩
  by_cases hother : ∀ own, p.own = some own → id ≠ own.id
  · rw [row_other hother] at hactive
    exact .inl (hbase hactive)
  · push Not at hother
    obtain ⟨own, hown, rfl⟩ := hother
    by_cases hkind : p.kind = .activate
    · exact .inr ⟨own, hown, hkind, rfl⟩
    · rw [row_own hown] at hactive
      exact .inl (hbase ((hs.own rid p own hp hown).isActive hkind hactive))

/-- What is in the list of rejections after a commit. -/
theorem mem_rejected_add (hp : w.pending.get rid = some p)
    (h : id ∈ (g.add w (.commit rid)).rejected) :
    id ∈ g.rejected ∨ ∃ own, p.own = some own ∧ p.kind = .reject ∧ id = own.id := by
  rw [add_commit hp] at h
  cases hown : p.own with
  | none =>
    rw [hown] at h
    exact .inl h
  | some own =>
    rw [hown, Option.elim_some] at h
    cases hkind : p.kind with
    | reject =>
      rw [hkind] at h
      rcases List.mem_append.mp h with hold | hself
      · exact .inl hold
      · exact .inr ⟨own, rfl, rfl, List.mem_singleton.mp hself⟩
    | _ =>
      rw [hkind] at h
      exact .inl h

/-- An activation has cleared every active row but its own one. -/
theorem agrees_activate {entry : Entry} (h : p.agrees w own = true) (hkind : p.kind = .activate)
    (hentry : w.entries.get id = some entry) (hactive : entry.isActive = true)
    (hnot : id ∉ p.cleared) : id = own.id := by
  simp only [Pending.agrees, hkind, Bool.and_eq_true, List.all_eq_true] at h
  have hrow := h.2 (id, entry) (List.mem_filter.mpr ⟨Table.mem_rows.mpr hentry, hactive⟩)
  simpa [hnot] using hrow

/-- What commits on a rejected row is a rejection. -/
theorem agrees_rejected {entry : Entry} (h : p.agrees w own = true) (hok : OwnOk g p.kind own)
    (hentry : w.entries.get own.id = some entry) (hstate : entry.state = .rejected) :
    p.kind = .reject := by
  cases hkind : p.kind with
  | reject => rfl
  | rollback => exact absurd hkind hok.writes
  | submit | approve | activate => simp [Pending.agrees, hkind, hentry, hstate] at h

theorem Tied.single_commit (hs : Sound w g) (hg : Tied w g) (hp : w.pending.get rid = some p)
    (hcond : ∀ own, p.own = some own → p.agrees w own = true) {id' : RevisionId}
    {entry entry' : Entry} (hentry : w.entries.get id = some entry)
    (hentry' : w.entries.get id' = some entry') (hactive : (p.row id entry).isActive = true)
    (hactive' : (p.row id' entry').isActive = true) : id = id' := by
  rcases active_row hs hp hactive with ⟨he, hnot⟩ | ⟨own, hown, hkind, rfl⟩
  · rcases active_row hs hp hactive' with ⟨he', _⟩ | ⟨own', hown', hkind', rfl⟩
    · exact hg.single id id' (isActive_eq_true.mpr ⟨entry, hentry, he⟩)
        (isActive_eq_true.mpr ⟨entry', hentry', he'⟩)
    · exact agrees_activate (hcond own' hown') hkind' hentry he hnot
  · rcases active_row hs hp hactive' with ⟨he', hnot'⟩ | ⟨own', hown', _, rfl⟩
    · exact (agrees_activate (hcond own hown) hkind hentry' he' hnot').symm
    · rw [hown] at hown'
      cases hown'
      rfl

/-- A rejected row after a commit that meets the condition. -/
theorem Tied.rejected_commit (hs : Sound w g) (hg : Tied w g) (hp : w.pending.get rid = some p)
    (hcond : ∀ own, p.own = some own → p.agrees w own = true)
    (hid : id ∈ (g.add w (.commit rid)).rejected) :
    ∃ entry, w.entries.get id = some entry ∧ (p.row id entry).state = .rejected
      ∧ (p.row id entry).isActive = false := by
  have hinactive : ∀ entry : Entry, entry.isActive = false → p.kind = .reject →
      (p.row id entry).isActive = false := by
    intro entry hfalse hkind
    by_contra htrue
    rw [Bool.not_eq_false] at htrue
    rcases active_row hs hp htrue with ⟨he, _⟩ | ⟨_, _, hact, _⟩
    · rw [hfalse] at he
      cases he
    · rw [hkind] at hact
      cases hact
  have hreject : ∀ (own : Own) (entry : Entry), p.own = some own → p.kind = .reject →
      (p.row own.id entry).state = .rejected := by
    intro own entry hown hkind
    rw [row_own hown, (hs.own rid p own hp hown).state, hkind]
    rfl
  rcases mem_rejected_add hp hid with hold | ⟨own, hown, hkind, rfl⟩
  · obtain ⟨entry, hentry, hstate, hfalse⟩ := hg.rejected id hold
    refine ⟨entry, hentry, ?_⟩
    have hnot : id ∉ p.cleared := fun hin => by
      obtain ⟨e, he, hactive⟩ := isActive_eq_true.mp (hs.cleared rid p id hp hin)
      rw [hentry] at he
      cases he
      rw [hfalse] at hactive
      cases hactive
    by_cases hother : ∀ own, p.own = some own → id ≠ own.id
    · rw [row_other hother, if_neg hnot]
      exact ⟨hstate, hfalse⟩
    · push Not at hother
      obtain ⟨own, hown, rfl⟩ := hother
      have hkind := agrees_rejected (hcond own hown) (hs.own rid p own hp hown) hentry hstate
      exact ⟨hreject own entry hown hkind, hinactive entry hfalse hkind⟩
  · obtain ⟨entry, hentry⟩ := Option.isSome_iff_exists.mp (hs.known rid p own hp hown)
    have hagrees := hcond own hown
    simp only [Pending.agrees, hkind, World.isActive, hentry, Option.any_some,
      Bool.not_eq_true'] at hagrees
    exact ⟨entry, hentry, hreject own entry hown hkind, hinactive entry hagrees hkind⟩

theorem Tied.step (hs : Sound w g) (hg : Tied w g) (hcond : undisturbed w a = true)
    (h : Prompts.step w a = some t) : Tied t (g.add w a) := by
  cases step_move h with
  | create id user template baselineHash entry hnew hdraft hinactive =>
    have hactive : ∀ j, World.isActive { w with entries := w.entries.set id entry } j = true →
        w.isActive j = true := by
      intro j hj
      obtain ⟨e, he, hflag⟩ := isActive_eq_true.mp hj
      rcases Table.get_set_eq_some.mp he with ⟨_, rfl⟩ | ⟨_, hold⟩
      · rw [hinactive] at hflag
        cases hflag
      · exact isActive_eq_true.mpr ⟨e, hold, hflag⟩
    refine ⟨fun j j' hj hj' => hg.single j j' (hactive j hj) (hactive j' hj'), fun j hj => ?_⟩
    obtain ⟨e, he, hstate⟩ := hg.rejected j hj
    have hne : j ≠ id := by
      rintro rfl
      rw [hnew] at he
      cases he
    exact ⟨e, by rw [Table.get_set_ne _ hne, he], hstate⟩
  | start | scan | clear | abort => exact hg.same rfl
  | commit rid p hp hfree =>
    rw [undisturbed, hp, Option.all_some] at hcond
    have hagrees : ∀ own, p.own = some own → p.agrees w own = true := by
      intro own hown
      rw [hown, Option.all_some] at hcond
      exact hcond
    constructor
    · intro id id' hid hid'
      obtain ⟨_, hwritten, hactive⟩ := isActive_eq_true.mp hid
      obtain ⟨_, hwritten', hactive'⟩ := isActive_eq_true.mp hid'
      obtain ⟨entry, hentry, rfl⟩ := Option.map_eq_some_iff.mp hwritten
      obtain ⟨entry', hentry', rfl⟩ := Option.map_eq_some_iff.mp hwritten'
      exact Tied.single_commit hs hg hp hagrees hentry hentry' hactive hactive'
    · intro id hid
      obtain ⟨entry, hentry, hrow⟩ := Tied.rejected_commit hs hg hp hagrees hid
      exact ⟨p.row id entry, by rw [Table.get_mapRows, hentry, Option.map_some], hrow⟩

/-! ## The prompt in use -/

/-- With one active row at most, `active_prompt` has found it. -/
theorem activeRows_eq (h : ∀ id id', w.isActive id = true → w.isActive id' = true → id = id')
    {entry : Entry} (hentry : w.entries.get id = some entry) (hactive : entry.isActive = true) :
    activeRows w.entries = [(id, entry)] := by
  have hnodup : (activeRows w.entries).Nodup := by
    have hkeys := w.entries.nodup
    rw [← w.entries.rows_keys] at hkeys
    exact hkeys.of_map.filter _
  refine List.perm_singleton.mp ((List.perm_ext_iff_of_nodup hnodup (List.nodup_singleton _)).mpr
    (fun r => ?_))
  rw [List.mem_singleton]
  constructor
  · intro hr
    obtain ⟨hmem, hr⟩ := List.mem_filter.mp hr
    have hget := Table.mem_rows.mp hmem
    have hid := h r.1 id (isActive_eq_true.mpr ⟨r.2, hget, hr⟩)
      (isActive_eq_true.mpr ⟨entry, hentry, hactive⟩)
    rw [hid, hentry] at hget
    exact Prod.ext hid (Option.some.inj hget).symm
  · rintro rfl
    exact List.mem_filter.mpr ⟨Table.mem_rows.mpr hentry, hactive⟩

/-- `active_prompt` when the row is the only active one. -/
theorem activePrompt_of_active (baseline : PromptAsset)
    (h : ∀ id id', w.isActive id = true → w.isActive id' = true → id = id') {entry : Entry}
    (hentry : w.entries.get id = some entry) (hactive : entry.isActive = true) :
    activePrompt w.entries baseline = effectivePrompt baseline
      (if entry.baselineHash = some baseline.contentHash then some (id, entry) else none) := by
  rw [activePrompt, activeRows_eq h hentry hactive, List.argmax_singleton, Option.filter_some]
  simp only [decide_eq_true_eq]

theorem activePrompt_of_none (baseline : PromptAsset) (h : ∀ id, w.isActive id = false) :
    activePrompt w.entries baseline = effectivePrompt baseline none := by
  have hnil : activeRows w.entries = [] := by
    refine List.filter_eq_nil_iff.mpr (fun r hr hactive => ?_)
    have hfound := isActive_eq_true.mpr ⟨r.2, Table.mem_rows.mp hr, hactive⟩
    rw [h r.1] at hfound
    cases hfound
  rw [activePrompt, hnil]
  rfl

/-! ## Runs -/

/-- The active revision: it has been approved, it has never been rejected, no other one is active,
and it is the one in use, unless it belongs to another baseline. -/
def ActiveOk (w : World) (g : History) : Prop :=
  (∀ id id', w.isActive id = true → w.isActive id' = true → id = id') ∧
  (∀ id, w.isActive id = true → id ∈ g.approved ∧ id ∉ g.rejected) ∧
  (∀ id entry baseline, w.entries.get id = some entry → entry.isActive = true →
    activePrompt w.entries baseline = effectivePrompt baseline
      (if entry.baselineHash = some baseline.contentHash then some (id, entry) else none)) ∧
  ((∀ id, w.isActive id = false) → ∀ baseline,
    activePrompt w.entries baseline = effectivePrompt baseline none)

theorem activeOk (hs : Sound w g) (hg : Tied w g) : ActiveOk w g := by
  refine ⟨hg.single, fun id hid => ?_, fun id entry baseline hentry hactive =>
    activePrompt_of_active baseline hg.single hentry hactive,
    fun hnone baseline => activePrompt_of_none baseline hnone⟩
  obtain ⟨entry, hentry, hactive⟩ := isActive_eq_true.mp hid
  refine ⟨hs.approved id entry hentry (.inr hactive), fun hmem => ?_⟩
  obtain ⟨e, he, _, hfalse⟩ := hg.rejected id hmem
  rw [hentry] at he
  cases he
  rw [hactive] at hfalse
  cases hfalse

/-- **Prompt activation.** In every run whose submissions, approvals and activations do not commit
on a rejected revision, whose rejections do not commit on an active one, and whose activations
have cleared every other active revision when they commit, the active revision is as it should
be. -/
theorem prompt_activation {w t : World} {g : History} {run : List Action} (h : Created w)
    (hcond : Along step (fun s a _ => undisturbed s a = true) w run)
    (hrun : exec (withGhost step note) (w, .empty) run = some (t, g)) : ActiveOk t g := by
  have hkept : ∀ (s : World × History) (a : Action) (u : World × History),
      Sound s.1 s.2 ∧ Tied s.1 s.2 → undisturbed s.1 a = true →
      withGhost step note s a = some u → Sound u.1 u.2 ∧ Tied u.1 u.2 := by
    rintro s a ⟨u, g'⟩ ⟨hs, hg⟩ hc hstep
    obtain ⟨hu, hg'⟩ := withGhost_eq_some.mp hstep
    have hnote : note s.1 a s.2 = s.2.add s.1 a := by
      simp only [note, hu]
    rw [hnote] at hg'
    cases hg'
    exact ⟨hs.step hu, hg.step hs hc hu⟩
  have hcond' := (along_withGhost note (Q := fun s a _ => undisturbed s a = true)
    (g := History.empty)).mpr hcond
  obtain ⟨hs, hg⟩ := exec_invariant hkept ⟨Sound.created h, Tied.created h⟩ hcond' hrun
  exact activeOk hs hg

/-! ## One activation after the other, and two at a time -/

def explainFindings : PromptAsset := ⟨"review.explain-qa-findings", "1.0.0", "Explain.", "h1"⟩

def noEntries : World := ⟨Table.empty, Table.empty⟩

/-- Two revisions, both approved. -/
def twoApproved : List Action :=
  [.create 1 7 "Be brief." "h1", .create 2 7 "Be polite." "h1",
    .start 1 (.submit 1 10), .commit 1, .start 2 (.submit 2 11), .commit 2,
    .start 3 (.approve 1 8 12), .commit 3, .start 4 (.approve 2 8 13), .commit 4]

def activation (id : RevisionId) : Request := .activate id ⟨some explainFindings, none, true⟩

def oneAfterTheOther : List Action :=
  [.start 5 (activation 1), .scan 5, .clear 5, .commit 5,
    .start 6 (activation 2), .scan 6, .clear 6, .commit 6]

/-- Neither activation finds an active revision to clear. -/
def bothAtATime : List Action :=
  [.start 5 (activation 1), .scan 5, .clear 5, .start 6 (activation 2), .scan 6, .clear 6,
    .commit 5, .commit 6]

theorem noEntries_created : Created noEntries where
  entries := by
    intro id entry h
    cases h
  pending := fun _ => rfl

theorem prompt_activation_oneAfterTheOther :
    ∃ t g, exec (withGhost step note) (noEntries, .empty) (twoApproved ++ oneAfterTheOther)
        = some (t, g)
      ∧ t.isActive 1 = false ∧ t.isActive 2 = true ∧ ActiveOk t g := by
  have hend : (exec step noEntries (twoApproved ++ oneAfterTheOther)).map
      (fun t => (t.isActive 1, t.isActive 2)) = some (false, true) := by decide +kernel
  obtain ⟨t, ht, hactive⟩ := Option.map_eq_some_iff.mp hend
  rw [Prod.mk.injEq] at hactive
  obtain ⟨g, hrun⟩ := exec_withGhost ht note .empty
  exact ⟨t, g, hrun, hactive.1, hactive.2,
    prompt_activation noEntries_created (by decide +kernel) hrun⟩

/-- Two activations at a time leave two active revisions. -/
theorem prompt_activation_bothAtATime :
    Created noEntries ∧
      ∃ t g, exec (withGhost step note) (noEntries, .empty) (twoApproved ++ bothAtATime)
          = some (t, g)
        ∧ t.isActive 1 = true ∧ t.isActive 2 = true ∧ ¬ ActiveOk t g := by
  have hend : (exec step noEntries (twoApproved ++ bothAtATime)).map
      (fun t => (t.isActive 1, t.isActive 2)) = some (true, true) := by decide +kernel
  obtain ⟨t, ht, hactive⟩ := Option.map_eq_some_iff.mp hend
  rw [Prod.mk.injEq] at hactive
  obtain ⟨g, hrun⟩ := exec_withGhost ht note .empty
  refine ⟨noEntries_created, t, g, hrun, hactive.1, hactive.2, fun hok => ?_⟩
  exact absurd (hok.1 1 2 hactive.1 hactive.2) (by decide)

end MegaPanel.Prompts

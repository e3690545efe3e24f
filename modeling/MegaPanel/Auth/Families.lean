import MegaPanel.Auth.Sessions

set_option autoImplicit false

/-! # Refresh token families

A family has at most one session that is not revoked: a rotation holds the lock of the session it
replaces, and the commit that inserts the new session revokes the old one. So much holds in every
run (`Sound`).

That a revoked family has no live session is another matter. The `UPDATE` of a family sees the
rows that are committed when it begins. If a rotation of the family is on its way then, the
`UPDATE` waits for the old session and finds it revoked, and the new one it does not see.
`session_families` has the condition: no rotation of a family is committed while a revocation of
the family is on its way.
-/

namespace MegaPanel.Auth

open MegaPanel.Lib

/-! ## The properties and the condition -/

/-- A session that can still be refreshed at the time `now`. -/
def AuthSession.Live (session : AuthSession) (now : Time) : Prop :=
  session.revokedAt = none ∧ session.replacedById = none ∧ now < session.expiresAt

/-- At any time at most one session of a family is live. -/
def OneLive (w : World) : Prop :=
  ∀ (now : Time) (i j : SessionId) (s t : AuthSession), w.sessions.get i = some s →
    w.sessions.get j = some t → s.familyId = t.familyId → s.Live now → t.Live now → i = j

/-- No session of these families is live at any time. -/
def NoneLive (w : World) (families : List FamilyId) : Prop :=
  ∀ (now : Time) (i : SessionId) (s : AuthSession), w.sessions.get i = some s →
    s.familyId ∈ families → ¬ s.Live now

/-- The history variable: the families whose revocation has been committed. -/
def note (w : World) (a : Action) (families : List FamilyId) : List FamilyId :=
  match a with
  | .commit rid _ _ _ _ =>
    match w.pending.get rid with
    | some (.revoking _ familyId _) => families ++ [familyId]
    | _ => families
  | _ => families

def Pending.revokes (familyId : FamilyId) : Pending → Bool
  | .revoking _ f _ => decide (f = familyId)
  | _ => false

/-- No rotation is committed while a revocation of its family is on its way. -/
def undivided (w : World) (a : Action) : Bool :=
  match a with
  | .commit rid _ _ _ _ =>
    match w.pending.get rid with
    | some (.rotating _ session) =>
      w.pending.rows.all (fun r => !r.2.revokes session.familyId)
    | _ => true
  | _ => true

/-! ## What a step does -/

variable {w w' : World} {hash : String} {id : SessionId} {session : AuthSession} {rid : RequestId}
  {a : Action}

/-- What a request knows when it has read its rows. -/
inductive Begun (w : World) (rid : RequestId) (locks : SessionId → Option RequestId) :
    Pending → Prop
  | rotating (id : SessionId) (session : AuthSession) (hget : w.sessions.get id = some session)
      (hopen : session.revokedAt = none) (hlock : locks id = some rid) :
      Begun w rid locks (.rotating id session)
  | dropping (id : SessionId) (hlock : locks id = some rid) : Begun w rid locks (.dropping id)
  | revoking (id : SessionId) (session : AuthSession) (hget : w.sessions.get id = some session) :
      Begun w rid locks (.revoking session.userId session.familyId
        (w.unrevoked session.userId session.familyId))

inductive Move (w : World) : Action → World → Prop
  | login (id : SessionId) (userId : UserId) (hash : String) (expiresAt : Time)
      (hnew : w.sessions.get id = none) :
      Move w (.login id userId hash expiresAt)
        { w with sessions := w.sessions.set id (newSession userId hash id expiresAt) }
  | begins (a : Action) (rid : RequestId) (p : Pending) (locks : SessionId → Option RequestId)
      (hidle : w.pending.get rid = none)
      (hlocks : ∀ id holder, w.locks id = some holder → locks id = some holder)
      (hbegun : Begun w rid locks p) (ha : ∀ rid id hash exp now, a ≠ .commit rid id hash exp now) :
      Move w a { w with locks := locks, pending := w.pending.set rid p }
  | commit (rid : RequestId) (id : SessionId) (hash : String) (expiresAt now : Time) (p : Pending)
      (w' : World) (hp : w.pending.get rid = some p)
      (hw : w.commit rid id hash expiresAt now p = some w') :
      Move w (.commit rid id hash expiresAt now) (w'.close rid)
  | abort (rid : RequestId) : Move w (.abort rid) (w.close rid)

theorem byToken_eq_some (h : w.byToken hash = some (id, session)) :
    w.sessions.get id = some session :=
  Table.mem_rows.mp (List.mem_of_find?_eq_some h)

theorem startRevoke_locks {seen : List SessionId} {holder : RequestId}
    (h : w.locks id = some holder) :
    (if id ∈ seen ∧ w.locks id = none then some rid else w.locks id) = some holder := by
  rw [if_neg (fun hboth => by rw [hboth.2] at h; cases h)]
  exact h

theorem step_move (h : step w a = some w') : Move w a w' := by
  cases a with
  | login id userId hash expiresAt =>
    simp only [step] at h
    split at h
    · next hnew =>
      cases h
      exact .login id userId hash expiresAt
        (Option.isNone_iff_eq_none.mp (Bool.and_eq_true_iff.mp hnew).1)
    · cases h
  | refresh rid hash userOk now =>
    simp only [step] at h
    split at h
    · next id session hidle htoken =>
      split at h
      · next hfree =>
        have hget := byToken_eq_some htoken
        have hlocks : ∀ i holder, w.locks i = some holder →
            Function.update w.locks id (some rid) i = some holder := by
          intro i holder hi
          rw [Function.update_of_ne (fun heq => by rw [heq, hfree] at hi; cases hi)]
          exact hi
        cases h
        rw [World.refreshLocked]
        split
        · exact .begins _ rid _ _ hidle
            (fun i holder hi => startRevoke_locks (w := w.lock rid id) (hlocks i holder hi))
            (.revoking id session hget) nofun
        · next hvalid =>
          split
          · exact .begins _ rid _ _ hidle hlocks (.rotating id session hget
              (not_not.mp (not_or.mp hvalid).1) (Function.update_self ..)) nofun
          · exact .begins _ rid _ _ hidle hlocks
              (.dropping id (Function.update_self ..)) nofun
      · cases h
    · cases h
  | logout rid hash =>
    simp only [step] at h
    split at h
    · next id session hidle htoken =>
      cases h
      exact .begins _ rid _ _ hidle (fun i holder hi => startRevoke_locks hi)
        (.revoking id session (byToken_eq_some htoken)) nofun
    · cases h
  | revokeSession rid userId current target =>
    simp only [step] at h
    split at h
    · next session hidle hget =>
      split at h
      · cases h
      · next hallowed =>
        cases h
        obtain rfl : session.userId = userId :=
          not_not.mp (not_or.mp (not_or.mp hallowed).2).1
        exact .begins _ rid _ _ hidle (fun i holder hi => startRevoke_locks hi)
          (.revoking target session hget) nofun
    · cases h
  | commit rid id hash expiresAt now =>
    obtain ⟨p, hp, hmap⟩ := Option.bind_eq_some_iff.mp h
    obtain ⟨w₁, hw₁, rfl⟩ := Option.map_eq_some_iff.mp hmap
    exact .commit rid id hash expiresAt now p w₁ hp hw₁
  | abort rid =>
    obtain ⟨p, hp, rfl⟩ := Option.map_eq_some_iff.mp h
    exact .abort rid

/-! ## The rows of a family -/

variable {t t' : Table SessionId AuthSession} {s : AuthSession}

structure Rows (t : Table SessionId AuthSession) : Prop where
  /-- A family is named after its first session. -/
  root : ∀ i s, t.get i = some s → (t.get s.familyId).isSome = true
  user : ∀ i j s q, t.get i = some s → t.get j = some q → s.familyId = q.familyId →
    s.userId = q.userId
  single : ∀ i j s q, t.get i = some s → t.get j = some q → s.familyId = q.familyId →
    s.revokedAt = none → q.revokedAt = none → i = j

/-- The rows of `t'` are those of `t`, some of them revoked. -/
structure Marks (t t' : Table SessionId AuthSession) : Prop where
  some_of_some : ∀ i s, t.get i = some s → ∃ s', t'.get i = some s'
  of_some : ∀ i s', t'.get i = some s' → ∃ s, t.get i = some s ∧ s'.userId = s.userId ∧
    s'.familyId = s.familyId ∧ (s'.revokedAt = none → s.revokedAt = none)

theorem Rows.marks (h : Rows t) (hm : Marks t t') : Rows t' where
  root i s' hs' := by
    obtain ⟨s, hs, _, hfamily, _⟩ := hm.of_some i s' hs'
    obtain ⟨r, hr⟩ := Option.isSome_iff_exists.mp (h.root i s hs)
    obtain ⟨r', hr'⟩ := hm.some_of_some _ _ hr
    rw [hfamily, hr']
    rfl
  user i j s' q' hs' hq' heq := by
    obtain ⟨s, hs, huser, hfamily, _⟩ := hm.of_some i s' hs'
    obtain ⟨q, hq, huser', hfamily', _⟩ := hm.of_some j q' hq'
    rw [huser, huser']
    exact h.user i j s q hs hq (hfamily.symm.trans (heq.trans hfamily'))
  single i j s' q' hs' hq' heq hopen hopen' := by
    obtain ⟨s, hs, _, hfamily, hback⟩ := hm.of_some i s' hs'
    obtain ⟨q, hq, _, hfamily', hback'⟩ := hm.of_some j q' hq'
    exact h.single i j s q hs hq (hfamily.symm.trans (heq.trans hfamily')) (hback hopen)
      (hback' hopen')

/-- A row is inserted into a family of its user that has no open session. -/
theorem Rows.insert (h : Rows t) (hroot : s.familyId = id ∨ (t.get s.familyId).isSome = true)
    (huser : ∀ j q, t.get j = some q → q.familyId = s.familyId → q.userId = s.userId)
    (hclosed : ∀ j q, t.get j = some q → q.familyId = s.familyId → q.revokedAt ≠ none) :
    Rows (t.set id s) where
  root i q hq := by
    rw [Table.get_set]
    split
    · rfl
    · next hne =>
      rcases Table.get_set_eq_some.mp hq with ⟨_, rfl⟩ | ⟨_, hold⟩
      · exact hroot.resolve_left hne
      · exact h.root i q hold
  user i j q r hq hr heq := by
    rcases Table.get_set_eq_some.mp hq with ⟨_, rfl⟩ | ⟨_, hold⟩ <;>
      rcases Table.get_set_eq_some.mp hr with ⟨_, rfl⟩ | ⟨_, hold'⟩
    · rfl
    · exact (huser j r hold' heq.symm).symm
    · exact huser i q hold heq
    · exact h.user i j q r hold hold' heq
  single i j q r hq hr heq hopen hopen' := by
    rcases Table.get_set_eq_some.mp hq with ⟨rfl, rfl⟩ | ⟨_, hold⟩ <;>
      rcases Table.get_set_eq_some.mp hr with ⟨rfl, rfl⟩ | ⟨_, hold'⟩
    · rfl
    · exact absurd hopen' (hclosed j r hold' heq.symm)
    · exact absurd hopen (hclosed i q hold heq)
    · exact h.single i j q r hold hold' heq hopen hopen'

theorem marks_modify {f : AuthSession → AuthSession} (huser : ∀ s, (f s).userId = s.userId)
    (hfamily : ∀ s, (f s).familyId = s.familyId) (hrevoked : ∀ s, (f s).revokedAt ≠ none) :
    Marks t (t.modify id f) where
  some_of_some i s hs := by
    rw [Table.get_modify]
    split
    · next heq => exact ⟨f s, by rw [← heq, hs]; rfl⟩
    · exact ⟨s, hs⟩
  of_some i s' hs' := by
    rw [Table.get_modify] at hs'
    split at hs'
    · next heq =>
      obtain ⟨s, hs, rfl⟩ := Option.map_eq_some_iff.mp hs'
      exact ⟨s, heq ▸ hs, huser s, hfamily s, fun hopen => absurd hopen (hrevoked s)⟩
    · exact ⟨s', hs', rfl, rfl, fun hopen => hopen⟩

theorem revokeRow_spec (seen : List SessionId) (now : Time) (i : SessionId) (s : AuthSession) :
    (revokeRow seen now i s).userId = s.userId ∧
      (revokeRow seen now i s).familyId = s.familyId ∧
      ((revokeRow seen now i s).revokedAt = none → s.revokedAt = none ∧ i ∉ seen) := by
  rw [revokeRow]
  split
  · exact ⟨rfl, rfl, nofun⟩
  · next h =>
    exact ⟨rfl, rfl, fun hopen => ⟨hopen, fun hmem => h ⟨hmem, hopen⟩⟩⟩

theorem marks_revoke (t : Table SessionId AuthSession) (seen : List SessionId) (now : Time) :
    Marks t (t.mapRows (revokeRow seen now)) where
  some_of_some i s hs := ⟨revokeRow seen now i s, by rw [Table.get_mapRows, hs]; rfl⟩
  of_some i s' hs' := by
    obtain ⟨s, hs, rfl⟩ := Option.map_eq_some_iff.mp hs'
    obtain ⟨huser, hfamily, hopen⟩ := revokeRow_spec seen now i s
    exact ⟨s, hs, huser, hfamily, fun h => (hopen h).1⟩

/-! ## The requests on their way -/

variable {r : RequestId} {p : Pending}

structure Sound (w : World) : Prop where
  rows : Rows w.sessions
  rotating : ∀ rid id session, w.pending.get rid = some (.rotating id session) →
    w.locks id = some rid ∧ w.sessions.get id = some session ∧ session.revokedAt = none
  dropping : ∀ rid id, w.pending.get rid = some (.dropping id) → w.locks id = some rid
  revoking : ∀ rid userId familyId seen,
    w.pending.get rid = some (.revoking userId familyId seen) →
      ∃ i s, w.sessions.get i = some s ∧ s.familyId = familyId ∧ s.userId = userId

theorem World.empty_sound : Sound World.empty where
  rows := ⟨nofun, nofun, nofun⟩
  rotating := nofun
  dropping := nofun
  revoking := nofun

/-- What is left after a transaction: the requests of others, with their locks. -/
theorem get_close (h : (w.close rid).pending.get r = some p) :
    r ≠ rid ∧ w.pending.get r = some p := by
  change (w.pending.erase rid).get r = some p at h
  rw [Table.get_erase] at h
  split_ifs at h
  next hne => exact ⟨hne, h⟩

theorem locks_close (hne : r ≠ rid) (h : w.locks id = some r) :
    (w.close rid).locks id = some r := by
  change (if w.locks id = some rid then none else w.locks id) = some r
  rw [if_neg (fun heq => hne (Option.some.inj (h.symm.trans heq))), h]

/-- A request ends after it has changed the rows: the rows that others have locked are the same. -/
theorem Sound.close (h : Sound w) (hrows : Rows w'.sessions) (hlocks : w'.locks = w.locks)
    (hpending : w'.pending = w.pending)
    (hkeep : ∀ i s, w.sessions.get i = some s → ∃ s', w'.sessions.get i = some s' ∧
      s'.userId = s.userId ∧ s'.familyId = s.familyId)
    (hlocked : ∀ i s r, w.sessions.get i = some s → w.locks i = some r → r ≠ rid →
      w'.sessions.get i = some s) : Sound (w'.close rid) where
  rows := hrows
  rotating r id session hp := by
    obtain ⟨hne, hp'⟩ := get_close hp
    obtain ⟨hlock, hget, hopen⟩ := h.rotating r id session (hpending ▸ hp')
    exact ⟨locks_close hne (hlocks ▸ hlock), hlocked id session r hget hlock hne, hopen⟩
  dropping r id hp := by
    obtain ⟨hne, hp'⟩ := get_close hp
    exact locks_close hne (hlocks ▸ h.dropping r id (hpending ▸ hp'))
  revoking r userId familyId seen hp := by
    obtain ⟨i, s, hs, hfamily, huser⟩ := h.revoking r userId familyId seen
      (hpending ▸ (get_close hp).2)
    obtain ⟨s', hs', huser', hfamily'⟩ := hkeep i s hs
    exact ⟨i, s', hs', hfamily'.trans hfamily, huser'.trans huser⟩

theorem Marks.keep (hm : Marks t t') {i : SessionId} (hs : t.get i = some s) :
    ∃ s', t'.get i = some s' ∧ s'.userId = s.userId ∧ s'.familyId = s.familyId := by
  obtain ⟨s', hs'⟩ := hm.some_of_some i s hs
  obtain ⟨s₀, hs₀, huser, hfamily, _⟩ := hm.of_some i s' hs'
  cases hs₀.symm.trans hs
  exact ⟨s', hs', huser, hfamily⟩

/-! ## Commits -/

variable {old j : SessionId} {expiresAt now : Time} {q : AuthSession}

/-- The new table after a rotation: the old session is revoked, the new one is there. -/
structure Rotates (w w' : World) (old id : SessionId) (session new : AuthSession) : Prop where
  get : w.sessions.get old = some session
  opened : session.revokedAt = none
  fresh : w.sessions.get id = none
  family : new.familyId = session.familyId ∧ new.userId = session.userId
  marked : ∃ t, Marks w.sessions t ∧ (∀ j, j ≠ old → t.get j = w.sessions.get j) ∧
    (∀ s, t.get old = some s → s.revokedAt ≠ none) ∧ w'.sessions = t.set id new
  locks : w'.locks = w.locks
  pending : w'.pending = w.pending

theorem commit_rotates (h : Sound w) (hp : w.pending.get rid = some (.rotating old session))
    (hw : w.commit rid id hash expiresAt now (.rotating old session) = some w') :
    Rotates w w' old id session (newSession session.userId hash session.familyId expiresAt) := by
  simp only [World.commit] at hw
  split at hw
  · next hnew =>
    cases hw
    obtain ⟨_, hget, hopen⟩ := h.rotating rid old session hp
    refine ⟨hget, hopen, Option.isNone_iff_eq_none.mp (Bool.and_eq_true_iff.mp hnew).1,
      ⟨rfl, rfl⟩, ⟨_, ?_, ?_, ?_, rfl⟩, rfl, rfl⟩
    · exact marks_modify (fun _ => rfl) (fun _ => rfl) (fun _ => nofun)
    · exact fun j hj => Table.get_modify_ne w.sessions hj _
    · intro s hs
      rw [Table.get_modify_self, hget] at hs
      cases hs
      nofun
  · cases hw

/-- After its old session is revoked, a family has no open session but the new one. -/
theorem Rotates.closed (h : Rows w.sessions) {new : AuthSession}
    (hr : Rotates w w' old id session new) (hm : Marks w.sessions t)
    (hold : ∀ s, t.get old = some s → s.revokedAt ≠ none) (hq : t.get j = some q)
    (hfamily : q.familyId = session.familyId) : q.revokedAt ≠ none := by
  intro hopen
  obtain ⟨s, hs, _, hsame, hback⟩ := hm.of_some j q hq
  obtain rfl : j = old := h.single j old s session hs hr.get (hsame.symm.trans hfamily)
    (hback hopen) hr.opened
  exact hold q hq hopen

theorem Sound.commit (h : Sound w) (hp : w.pending.get rid = some p)
    (hw : w.commit rid id hash expiresAt now p = some w') : Sound (w'.close rid) := by
  cases p with
  | rotating old session =>
    have hr := commit_rotates h hp hw
    obtain ⟨t, hm, hother, hold, hsessions⟩ := hr.marked
    have hlock := (h.rotating rid old session hp).1
    have hrows : Rows w'.sessions := by
      rw [hsessions]
      refine (h.rows.marks hm).insert (.inr ?_) (fun j q hq hfamily => ?_)
        (fun j q hq hfamily => ?_)
      · rw [hr.family.1]
        obtain ⟨s', hs', _, hfamily⟩ := hm.keep hr.get
        rw [← hfamily]
        exact (h.rows.marks hm).root old s' hs'
      · obtain ⟨s, hs, huser, hfamily', _⟩ := hm.of_some j q hq
        rw [huser, hr.family.2]
        exact h.rows.user j old s session hs hr.get
          (hfamily'.symm.trans (hfamily.trans hr.family.1))
      · exact hr.closed h.rows hm hold hq (hfamily.trans hr.family.1)
    have hne : ∀ i s, w.sessions.get i = some s → i ≠ id := fun i s hs heq => by
      rw [heq, hr.fresh] at hs
      cases hs
    refine h.close hrows hr.locks hr.pending (fun i s hs => ?_) (fun i s r hs hi hne' => ?_)
    · rw [hsessions, Table.get_set_ne _ (hne i s hs)]
      exact hm.keep hs
    · have hother' : i ≠ old := by
        rintro rfl
        exact hne' (Option.some.inj (hi.symm.trans hlock))
      rw [hsessions, Table.get_set_ne _ (hne i s hs), hother i hother', hs]
  | dropping old =>
    cases hw
    have hm : Marks w.sessions (w.sessions.modify old (fun row =>
        { row with revokedAt := some now })) :=
      marks_modify (fun _ => rfl) (fun _ => rfl) (fun _ => nofun)
    have hlock := h.dropping rid old hp
    refine h.close (h.rows.marks hm) rfl rfl (fun i s hs => hm.keep hs)
      (fun i s r hs hi hne => ?_)
    exact (Table.get_modify_ne w.sessions (fun heq => hne (Option.some.inj
      ((heq ▸ hi).symm.trans hlock))) _).trans hs
  | revoking userId familyId seen =>
    simp only [World.commit] at hw
    split at hw
    · next hfree =>
      cases hw
      have hm := marks_revoke w.sessions seen now
      refine h.close (h.rows.marks hm) rfl rfl (fun i s hs => hm.keep hs)
        (fun i s r hs hi hne => ?_)
      rw [Table.get_mapRows, hs, Option.map_some, revokeRow, if_neg]
      rintro ⟨hmem, _⟩
      have hholder := List.all_eq_true.mp hfree i hmem
      rw [hi, Option.all_some, decide_eq_true_iff] at hholder
      exact hne hholder
    · cases hw

theorem Sound.move (h : Sound w) (hm : Move w a w') : Sound w' := by
  cases hm with
  | login id userId hash expiresAt hnew =>
    have hfamily : ∀ j q, w.sessions.get j = some q → q.familyId ≠ id := by
      rintro j q hq rfl
      have hroot := h.rows.root j q hq
      rw [hnew] at hroot
      cases hroot
    have hkeep : ∀ i s, w.sessions.get i = some s →
        (w.sessions.set id (newSession userId hash id expiresAt)).get i = some s := by
      intro i s hs
      rw [Table.get_set_ne]
      · exact hs
      · rintro rfl
        rw [hnew] at hs
        cases hs
    refine ⟨h.rows.insert (.inl rfl) (fun j q hq heq => absurd heq (hfamily j q hq))
      (fun j q hq heq => absurd heq (hfamily j q hq)), ?_, h.dropping, ?_⟩
    · intro rid i session hp
      obtain ⟨hlock, hget, hopen⟩ := h.rotating rid i session hp
      exact ⟨hlock, hkeep i session hget, hopen⟩
    · intro rid u f seen hp
      obtain ⟨i, s, hs, hrest⟩ := h.revoking rid u f seen hp
      exact ⟨i, s, hkeep i s hs, hrest⟩
  | begins _ rid p locks hidle hlocks hbegun _ =>
    have hcases : ∀ r q, (w.pending.set rid p).get r = some q →
        r = rid ∧ q = p ∨ w.pending.get r = some q := fun r q hq =>
      (Table.get_set_eq_some.mp hq).imp_right And.right
    refine ⟨h.rows, fun r i session hq => ?_, fun r i hq => ?_, fun r u f seen hq => ?_⟩
    · rcases hcases r _ hq with ⟨rfl, rfl⟩ | hold
      · cases hbegun with
        | rotating _ _ hget hopen hlock => exact ⟨hlock, hget, hopen⟩
      · obtain ⟨hlock, hrest⟩ := h.rotating r i session hold
        exact ⟨hlocks i r hlock, hrest⟩
    · rcases hcases r _ hq with ⟨rfl, rfl⟩ | hold
      · cases hbegun with
        | dropping _ hlock => exact hlock
      · exact hlocks i r (h.dropping r i hold)
    · rcases hcases r _ hq with ⟨rfl, rfl⟩ | hold
      · cases hbegun with
        | revoking i s hget => exact ⟨i, s, hget, rfl, rfl⟩
      · exact h.revoking r u f seen hold
  | commit rid id hash expiresAt now p w₁ hp hw => exact h.commit hp hw
  | abort rid =>
    exact h.close h.rows rfl rfl (fun i s hs => ⟨s, hs, rfl, rfl⟩) (fun _ _ _ hs _ _ => hs)

theorem Sound.oneLive (h : Sound w) : OneLive w :=
  fun _ i j s t hs ht heq hlive hlive' => h.rows.single i j s t hs ht heq hlive.1 hlive'.1

/-! ## Revoked families -/

variable {families : List FamilyId}

/-- The `UPDATE`s on their way have seen the open sessions of their families, and a family whose
revocation is committed has none. -/
structure Revoked (s : World × List FamilyId) : Prop where
  seen : ∀ rid userId familyId seen,
    s.1.pending.get rid = some (.revoking userId familyId seen) →
      ∀ j q, s.1.sessions.get j = some q → q.familyId = familyId → q.revokedAt = none → j ∈ seen
  closed : ∀ f ∈ s.2, (∃ i q, s.1.sessions.get i = some q ∧ q.familyId = f) ∧
    ∀ j q, s.1.sessions.get j = some q → q.familyId = f → q.revokedAt ≠ none

theorem Revoked.noneLive {s : World × List FamilyId} (h : Revoked s) : NoneLive s.1 s.2 :=
  fun _ i q hq hmem hlive => (h.closed q.familyId hmem).2 i q hq rfl hlive.1

/-- Rows that are revoked stay out of the way of both facts. -/
theorem Revoked.marks (h : Revoked (w, families)) (hm : Marks w.sessions w'.sessions)
    (hpending : w'.pending = w.pending) : Revoked (w'.close rid, families) where
  seen r userId familyId seen hp j q hq hfamily hopen := by
    obtain ⟨s, hs, _, hsame, hback⟩ := hm.of_some j q hq
    exact h.seen r userId familyId seen (hpending ▸ (get_close hp).2) j s hs
      (hsame.symm.trans hfamily) (hback hopen)
  closed f hf := by
    obtain ⟨⟨i, s, hs, hfamily⟩, hclosed⟩ := h.closed f hf
    obtain ⟨s', hs', _, hfamily'⟩ := hm.keep hs
    refine ⟨⟨i, s', hs', hfamily'.trans hfamily⟩, fun j q hq hq' hopen => ?_⟩
    obtain ⟨r, hr, _, hsame, hback⟩ := hm.of_some j q hq
    exact hclosed j r hr (hsame.symm.trans hq') (hback hopen)

theorem mem_unrevoked {userId : UserId} {familyId : FamilyId} (hq : w.sessions.get j = some q)
    (huser : q.userId = userId) (hfamily : q.familyId = familyId) (hopen : q.revokedAt = none) :
    j ∈ w.unrevoked userId familyId :=
  List.mem_map.mpr ⟨(j, q), List.mem_filter.mpr ⟨Table.mem_rows.mpr hq,
    by simp [huser, hfamily, hopen]⟩, rfl⟩

theorem Revoked.commit (h : Revoked (w, families)) (hsound : Sound w)
    (hp : w.pending.get rid = some p)
    (hundivided : undivided w (.commit rid id hash expiresAt now) = true)
    (hw : w.commit rid id hash expiresAt now p = some w') :
    Revoked (w'.close rid, note w (.commit rid id hash expiresAt now) families) := by
  cases p with
  | rotating old session =>
    have hnote : note w (.commit rid id hash expiresAt now) families = families := by
      simp only [note, hp]
    rw [hnote]
    have hr := commit_rotates hsound hp hw
    obtain ⟨t, hm, hother, hold, hsessions⟩ := hr.marked
    have hquiet : ∀ r userId familyId seen,
        w.pending.get r = some (.revoking userId familyId seen) →
          familyId ≠ session.familyId := by
      rintro r userId familyId seen hpend rfl
      simp only [undivided, hp] at hundivided
      have hno := List.all_eq_true.mp hundivided _ (Table.mem_rows.mpr hpend)
      simp [Pending.revokes] at hno
    have hopenFamily : ∀ f ∈ families, f ≠ session.familyId := by
      rintro f hf rfl
      exact (h.closed _ hf).2 old session hr.get rfl hr.opened
    refine ⟨fun r userId familyId seen hpend j q hq hfamily hopen => ?_, fun f hf => ⟨?_, ?_⟩⟩
    · have hpend' := (get_close hpend).2
      rw [hr.pending] at hpend'
      change w'.sessions.get j = some q at hq
      rw [hsessions] at hq
      rcases Table.get_set_eq_some.mp hq with ⟨_, rfl⟩ | ⟨_, hq'⟩
      · exact absurd (hfamily.symm.trans hr.family.1) (hquiet r userId familyId seen hpend')
      · obtain ⟨s, hs, _, hsame, hback⟩ := hm.of_some j q hq'
        exact h.seen r userId familyId seen hpend' j s hs (hsame.symm.trans hfamily) (hback hopen)
    · obtain ⟨i, s, hs, hfamily⟩ := (h.closed f hf).1
      obtain ⟨s', hs', _, hfamily'⟩ := hm.keep hs
      have hne : i ≠ id := fun heq => by
        rw [heq, hr.fresh] at hs
        cases hs
      refine ⟨i, s', ?_, hfamily'.trans hfamily⟩
      change w'.sessions.get i = some s'
      rw [hsessions, Table.get_set_ne _ hne, hs']
    · intro j q hq hfamily
      change w'.sessions.get j = some q at hq
      rw [hsessions] at hq
      rcases Table.get_set_eq_some.mp hq with ⟨_, rfl⟩ | ⟨_, hq'⟩
      · exact absurd (hfamily.symm.trans hr.family.1) (hopenFamily f hf)
      · obtain ⟨s, hs, _, hsame, hback⟩ := hm.of_some j q hq'
        exact fun hopen => (h.closed f hf).2 j s hs (hsame.symm.trans hfamily) (hback hopen)
  | dropping old =>
    have hnote : note w (.commit rid id hash expiresAt now) families = families := by
      simp only [note, hp]
    rw [hnote]
    cases hw
    exact h.marks (marks_modify (fun _ => rfl) (fun _ => rfl) (fun _ => nofun)) rfl
  | revoking userId familyId seen =>
    have hnote : note w (.commit rid id hash expiresAt now) families
        = families ++ [familyId] := by simp only [note, hp]
    rw [hnote]
    simp only [World.commit] at hw
    split at hw
    · cases hw
      have hrest : Revoked (World.close
          { w with sessions := w.sessions.mapRows (revokeRow seen now) } rid, families) :=
        h.marks (marks_revoke w.sessions seen now) rfl
      refine ⟨hrest.seen, fun f hf => ?_⟩
      rcases List.mem_append.mp hf with hold | hnew
      · exact hrest.closed f hold
      obtain rfl := List.mem_singleton.mp hnew
      obtain ⟨i, s, hs, hfamily, _⟩ := hsound.revoking rid userId f seen hp
      obtain ⟨s', hs', _, hfamily'⟩ := (marks_revoke w.sessions seen now).keep hs
      refine ⟨⟨i, s', hs', hfamily'.trans hfamily⟩, fun j q hq hq' hopen => ?_⟩
      obtain ⟨r, hr, rfl⟩ := Option.map_eq_some_iff.mp hq
      obtain ⟨_, hsame, hback⟩ := revokeRow_spec seen now j r
      obtain ⟨hopen', hunseen⟩ := hback hopen
      exact hunseen (h.seen rid userId f seen hp j r hr (hsame.symm.trans hq') hopen')
    · cases hw

theorem Revoked.move (h : Revoked (w, families)) (hsound : Sound w)
    (hundivided : undivided w a = true) (hm : Move w a w') : Revoked (w', note w a families) := by
  cases hm with
  | login id userId hash expiresAt hnew =>
    have hfamily : ∀ j q, w.sessions.get j = some q → q.familyId ≠ id := by
      rintro j q hq rfl
      have hroot := hsound.rows.root j q hq
      rw [hnew] at hroot
      cases hroot
    refine ⟨fun r u f seen hp j q hq hf hopen => ?_, fun f hf => ?_⟩
    · rcases Table.get_set_eq_some.mp hq with ⟨rfl, rfl⟩ | ⟨_, hold⟩
      · obtain ⟨i, s, hs, hs', _⟩ := hsound.revoking r u f seen hp
        exact absurd (hs'.trans hf.symm) (hfamily i s hs)
      · exact h.seen r u f seen hp j q hold hf hopen
    · obtain ⟨⟨i, s, hs, hs'⟩, hclosed⟩ := h.closed f hf
      refine ⟨⟨i, s, ?_, hs'⟩, fun j q hq hq' => ?_⟩
      · rw [Table.get_set_ne]
        · exact hs
        · rintro rfl
          rw [hnew] at hs
          cases hs
      · rcases Table.get_set_eq_some.mp hq with ⟨rfl, rfl⟩ | ⟨_, hold⟩
        · exact absurd (hs'.trans hq'.symm) (hfamily i s hs)
        · exact hclosed j q hold hq'
  | begins _ rid p locks hidle hlocks hbegun ha =>
    have hnote : note w a families = families := by
      cases a with
      | commit rid id hash exp now => exact absurd rfl (ha rid id hash exp now)
      | _ => rfl
    rw [hnote]
    refine ⟨fun r u f seen hp j q hq hf hopen => ?_, h.closed⟩
    rcases Table.get_set_eq_some.mp hp with ⟨rfl, rfl⟩ | ⟨_, hold⟩
    · cases hbegun with
      | revoking i s hget =>
        exact mem_unrevoked hq (hsound.rows.user j i q s hq hget hf) hf hopen
    · exact h.seen r u f seen hold j q hq hf hopen
  | commit rid id hash expiresAt now p w₁ hp hw => exact h.commit hsound hp hundivided hw
  | abort rid =>
    exact h.marks ⟨fun i s hs => ⟨s, hs⟩, fun i s hs => ⟨s, hs, rfl, rfl, fun hopen => hopen⟩⟩ rfl

/-! ## Every run -/

/-- **Refresh token families.** After every run at most one session of a family is live. If no
rotation is committed while a revocation of its family is on its way, no session of a family whose
revocation has been committed is live. -/
theorem session_families {as : List Action} {t : World × List FamilyId}
    (hrun : exec (withGhost step note) (World.empty, []) as = some t) :
    OneLive t.1 ∧
      (Along step (fun w a _ => undivided w a = true) World.empty as → NoneLive t.1 t.2) := by
  constructor
  · exact (exec_invariant (I := fun s => Sound s.1) (G := fun _ _ _ => True)
      (fun s a u hs _ hst => hs.move (step_move (withGhost_eq_some.mp hst).1))
      World.empty_sound (along_of_forall (Q := fun _ => True) (fun _ _ => trivial) _) hrun).oneLive
  · intro hundivided
    have hstep : ∀ (s : World × List FamilyId) (a : Action) (u : World × List FamilyId),
        Sound s.1 ∧ Revoked s → undivided s.1 a = true → withGhost step note s a = some u →
          Sound u.1 ∧ Revoked u := by
      rintro ⟨w, g⟩ a ⟨w', g'⟩ ⟨hsound, hrevoked⟩ hu hst
      obtain ⟨hw, hg⟩ := withGhost_eq_some.mp hst
      obtain rfl : g' = note w a g := hg
      exact ⟨hsound.move (step_move hw), hrevoked.move hsound hu (step_move hw)⟩
    have hempty : Revoked (World.empty, []) := ⟨nofun, nofun⟩
    exact (exec_invariant (I := fun s => Sound s.1 ∧ Revoked s)
      (G := fun s a _ => undivided s.1 a = true) hstep ⟨World.empty_sound, hempty⟩
      ((along_withGhost note).mpr hundivided) hrun).2.noneLive

/-! ## Reuse of a token -/

/-- A login, and a first refresh. -/
def rotated : List Action :=
  [.login 1 7 "a" 900, .refresh 10 "a" true 100, .commit 10 2 "b" 900 100]

/-- The first token is used again: the family is revoked. -/
def reused : List Action := rotated ++ [.refresh 11 "a" true 200, .commit 11 0 "" 0 200]

/-- The first token is used again while the second one is refreshed. -/
def reusedMeanwhile : List Action :=
  rotated ++ [.refresh 12 "b" true 200, .refresh 11 "a" true 200, .commit 12 3 "c" 900 200,
    .commit 11 0 "" 0 200]

theorem session_families_reused : ∃ t : World × List FamilyId,
    exec (withGhost step note) (World.empty, []) reused = some t ∧ t.2 = [1] ∧
      OneLive t.1 ∧ NoneLive t.1 t.2 := by
  have hrun : (exec (withGhost step note) (World.empty, []) reused).any
      (fun t => decide (t.2 = [1])) = true := by decide +kernel
  obtain ⟨t, ht, hfamilies⟩ := Option.any_eq_true _ _ |>.mp hrun
  obtain ⟨hone, hnone⟩ := session_families ht
  exact ⟨t, ht, of_decide_eq_true hfamilies, hone, hnone (by decide +kernel)⟩

/-- The new session of the refresh is live after the revocation of its family. -/
theorem session_families_reusedMeanwhile : ∃ t : World × List FamilyId,
    exec (withGhost step note) (World.empty, []) reusedMeanwhile = some t ∧
      ¬ NoneLive t.1 t.2 := by
  have hrun : (exec (withGhost step note) (World.empty, []) reusedMeanwhile).any
      (fun t => decide (t.1.sessions.get 3 = some (newSession 7 "c" 1 900) ∧ 1 ∈ t.2)) = true := by
    decide +kernel
  obtain ⟨t, ht, hlive⟩ := Option.any_eq_true _ _ |>.mp hrun
  obtain ⟨hget, hmem⟩ := of_decide_eq_true hlive
  exact ⟨t, ht, fun h => h 300 3 _ hget hmem ⟨rfl, rfl, by decide⟩⟩

end MegaPanel.Auth

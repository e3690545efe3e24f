import MegaPanel.Incidents.Monitor
import MegaPanel.Lib.Dict
import MegaPanel.Lib.Latch

set_option autoImplicit false

/-! # Recovery notices

A signal of a domain is a latch: it is set while the domain has an incident for it that is not
resolved, a failure alert is sent when it is set, a recovery alert when it is cleared, and an
operator who resolves the incident releases it. Along every run the alerts of a signal alternate.

What a recovery alert says is another matter: it speaks of the domain, whose check passes again,
but it is sent as soon as one signal is gone. The probe reports the first failure it meets, so a
domain that fails in another way than before is announced as recovered. `recovery_iff` is the
exact condition: in a round whose probe of a domain reports a failure, every open incident of
the domain belongs to a signal that this probe shows.
-/

namespace MegaPanel.Incidents

open MegaPanel.Lib AlertDelivery

/-! ## One incident at a time -/

variable {incidents : Incidents} {id : IncidentId} {new old : AlertIncident} {now : Time}
  {subject : Subject}

theorem oneActive_set (h : OneActive incidents)
    (hnew : new.isActive = true → ∀ j i, incidents.get j = some i → i.isActive = true →
      i.subject = new.subject → j = id) : OneActive (incidents.set id new) := by
  intro j k a b hj hk ha hb hab
  rcases Table.get_set_eq_some.mp hj with ⟨rfl, rfl⟩ | ⟨hjid, hj'⟩
  · rcases Table.get_set_eq_some.mp hk with ⟨rfl, rfl⟩ | ⟨_, hk'⟩
    · rfl
    · exact (hnew ha k b hk' hb hab.symm).symm
  · rcases Table.get_set_eq_some.mp hk with ⟨rfl, rfl⟩ | ⟨_, hk'⟩
    · exact absurd (hnew hb j a hj' ha hab) hjid
    · exact h j k a b hj' hk' ha hb hab

/-- A row written for one subject is not seen under another. -/
theorem isOpen_set_ne {incidents : Incidents} {id : IncidentId} {new : AlertIncident}
    {subject : Subject} (hne : subject ≠ new.subject)
    (hold : ∀ old, incidents.get id = some old → old.subject = new.subject) :
    isOpen (incidents.set id new) subject = isOpen incidents subject := by
  rw [Bool.eq_iff_iff, isOpen_iff, isOpen_iff]
  constructor
  · rintro ⟨j, i, hj, hi, hactive⟩
    rcases Table.get_set_eq_some.mp hj with ⟨_, rfl⟩ | ⟨_, hj'⟩
    · exact absurd hi.symm hne
    · exact ⟨j, i, hj', hi, hactive⟩
  · rintro ⟨j, i, hj, hi, hactive⟩
    have hjid : j ≠ id := by
      rintro rfl
      exact hne (hi.symm.trans (hold i hj))
    exact ⟨j, i, by rw [Table.get_set_ne _ hjid]; exact hj, hi, hactive⟩

theorem isOpen_set_active {incidents : Incidents} {id : IncidentId} {new : AlertIncident}
    (h : new.isActive = true) : isOpen (incidents.set id new) new.subject = true :=
  isOpen_iff.mpr ⟨id, new, Table.get_set_self .., rfl, h⟩

/-- Without its incident a subject has none that is active. -/
theorem isOpen_set_ended (h : OneActive incidents) (hget : incidents.get id = some old)
    (hactive : old.isActive = true) (hsubject : new.subject = old.subject)
    (hended : new.isActive = false) : isOpen (incidents.set id new) new.subject = false := by
  rw [← Bool.not_eq_true, isOpen_iff]
  rintro ⟨j, i, hj, hi, hi'⟩
  rcases Table.get_set_eq_some.mp hj with ⟨_, rfl⟩ | ⟨hjid, hj'⟩
  · rw [hended] at hi'
    cases hi'
  · exact hjid (h j id i old hj' hget hi' hactive (hi.trans hsubject))

/-- An incident that was over and still is shows under no subject. -/
theorem isOpen_set_inactive (hget : incidents.get id = some old) (hold : old.isActive = false)
    (hnew : new.isActive = false) (subject : Subject) :
    isOpen (incidents.set id new) subject = isOpen incidents subject := by
  rw [Bool.eq_iff_iff, isOpen_iff, isOpen_iff]
  constructor
  · rintro ⟨j, i, hj, hi, hactive⟩
    rcases Table.get_set_eq_some.mp hj with ⟨_, rfl⟩ | ⟨_, hj'⟩
    · rw [hnew] at hactive
      cases hactive
    · exact ⟨j, i, hj', hi, hactive⟩
  · rintro ⟨j, i, hj, hi, hactive⟩
    have hjid : j ≠ id := by
      rintro rfl
      rw [hget] at hj
      cases hj
      rw [hold] at hactive
      cases hactive
    exact ⟨j, i, by rw [Table.get_set_ne _ hjid]; exact hj, hi, hactive⟩

/-- What `observe_alert` leaves. -/
structure Observed (incidents : Incidents) (subject : Subject) (on : Bool)
    (incidents' : Incidents) : Prop where
  oneActive : OneActive incidents'
  shown : isOpen incidents' subject = on
  others : ∀ other, other ≠ subject → isOpen incidents' other = isOpen incidents other

theorem observeAlert_observed {incidents' : Incidents} {on : Bool} (h : OneActive incidents)
    (hresult : observeAlert incidents now id subject on = some incidents') :
    Observed incidents subject on incidents' := by
  unfold observeAlert at hresult
  split at hresult
  · cases hresult
  split at hresult
  · cases hresult
  rcases scalarOneOrNone_active h subject with ⟨hclosed, hnone⟩ | ⟨j, i, hj, hi, hactive, hsome⟩
  · rw [hnone] at hresult
    cases on with
    | false =>
      cases hresult
      exact ⟨h, hclosed, fun _ _ => rfl⟩
    | true =>
      -- the first observation inserts a row
      dsimp only at hresult
      split at hresult
      · cases hresult
      · next hfresh =>
        cases hresult
        have hget : incidents.get id = none := by simpa using hfresh
        refine ⟨oneActive_set h (fun _ j i hj hi hsubject => ?_), isOpen_set_active rfl,
          fun other hother => isOpen_set_ne hother (fun old hold => ?_)⟩
        · have hopen : isOpen incidents subject = true := isOpen_iff.mpr ⟨j, i, hj, hsubject, hi⟩
          rw [hclosed] at hopen
          cases hopen
        · rw [hget] at hold
          cases hold
  · rw [hsome] at hresult
    subst hi
    have honly : ∀ k b, incidents.get k = some b → b.isActive = true → b.subject = i.subject →
        k = j := fun k b hk hb hsubject => h k j b i hk hj hb hactive hsubject
    have hkept : ∀ old, incidents.get j = some old → old.subject = i.subject := by
      intro old hold
      rw [hj] at hold
      exact (Option.some.inj hold) ▸ rfl
    cases on with
    | true =>
      cases hresult
      exact ⟨oneActive_set h (fun _ => honly), isOpen_set_active hactive,
        fun other hother => isOpen_set_ne hother hkept⟩
    | false =>
      cases hresult
      exact ⟨oneActive_set h (fun _ => honly), isOpen_set_ended h hj hactive rfl rfl,
        fun other hother => isOpen_set_ne hother hkept⟩

/-! ## The notices of a signal -/

variable {alert : Alert} {signal : Signal}

/-- What a notification says about a subject. -/
def edge (subject : Subject) (n : Notification) : Option Edge :=
  if n.tenantId = subject.tenantId ∧ n.subjectKind = some subject.kind ∧
      n.subjectKey = some subject.key then
    if n.signalCode = some subject.signal.code then some .rise
    else if n.signalCode = some (subject.signal.code ++ "-recovered") then some .fall
    else none
  else none

/-- The notification a visit creates for a signal that was on or off before. -/
def Visit.notices (v : Visit) (signal : Signal) (before : Bool) : List Notification :=
  match before, v.probe.shows signal with
  | false, true => [(failureAlert v.domain signal).notification (v.newNotification signal)]
  | true, false => [(recoveryAlert v.domain signal).notification (v.newNotification signal)]
  | _, _ => []

theorem bounded_eq_self {value : String} {maximum : Nat} (h : value.length ≤ maximum) :
    bounded value maximum = value := by
  rw [bounded, List.take_of_length_le (by rwa [String.length_toList]), String.ofList_toList]

theorem bounded_str (u : Uuid) : bounded (orElse (some u.str) "") 64 = u.str := by
  have hne : u.str ≠ "" := by
    intro h
    have hlen := u.length_str
    rw [h] at hlen
    cases hlen
  have htruthy : truthy (some u.str) = true := truthy_iff.mpr ⟨u.str, rfl, hne⟩
  rw [orElse, if_pos htruthy, Option.getD_some, bounded_eq_self (by rw [u.length_str]; decide)]

theorem code_injOn : ∀ a ∈ monitored, ∀ b ∈ monitored, a.code = b.code → a = b := by decide

theorem code_ne_recovered : ∀ a ∈ monitored, ∀ b ∈ monitored, a.code ≠ b.code ++ "-recovered" := by
  decide

/-- No watched signal is named like a recovery. -/
theorem not_suffix_code :
    ∀ a ∈ monitored, ¬ "-recovered".toList <:+ a.code.toList := by decide

theorem recovered_inj {a b : String} (h : a ++ "-recovered" = b ++ "-recovered") : a = b := by
  have htoList := congrArg String.toList h
  rw [String.toList_append, String.toList_append] at htoList
  exact String.toList_injective (List.append_cancel_right htoList)

/-- The alerts of a domain speak about its subjects. -/
theorem edge_notification {d : Domain} (htenant : alert.tenantId = d.tenantId)
    (hkind : alert.subjectKind = some "domain") (hkey : alert.subjectKey = some d.id.str)
    (id : NotificationId) (subject : Subject) :
    edge subject (alert.notification id) =
      if subject = d.subject subject.signal then
        if alert.signalCode = subject.signal.code then some .rise
        else if alert.signalCode = subject.signal.code ++ "-recovered" then some .fall
        else none
      else none := by
  have hkind' : (alert.notification id).subjectKind = some "domain" := by
    have hbounded : bounded (orElse (some "domain") "system") 32 = "domain" := by decide
    rw [Alert.notification, hkind, hbounded]
  have hkey' : (alert.notification id).subjectKey = some d.id.str := by
    rw [Alert.notification, hkey, bounded_str]
  have hcode : (alert.notification id).signalCode = some alert.signalCode := rfl
  have hsubject : (subject = d.subject subject.signal) ↔
      (alert.notification id).tenantId = subject.tenantId ∧
        (alert.notification id).subjectKind = some subject.kind ∧
        (alert.notification id).subjectKey = some subject.key := by
    rw [hkind', hkey', show (alert.notification id).tenantId = alert.tenantId from rfl, htenant]
    obtain ⟨tenantId, signal, kind, key⟩ := subject
    simp only [Domain.subject, Subject.mk.injEq, Option.some.injEq, true_and]
    constructor
    · rintro ⟨rfl, rfl, rfl⟩
      exact ⟨rfl, rfl, rfl⟩
    · rintro ⟨rfl, rfl, rfl⟩
      exact ⟨rfl, rfl, rfl⟩
  rw [edge, hcode]
  simp only [← hsubject, Option.some.injEq]

/-- A failure alert sets the latch of its own subject and touches no other. -/
theorem edge_failure {d : Domain} {signal : Signal} {subject : Subject}
    (hsignal : signal ∈ monitored) (hsubject : subject.signal ∈ monitored) (id : NotificationId) :
    edge subject ((failureAlert d signal).notification id) =
      if subject = d.subject signal then some .rise else none := by
  rw [edge_notification rfl rfl rfl]
  by_cases hown : signal = subject.signal
  · rw [hown, show (failureAlert d subject.signal).signalCode = subject.signal.code from rfl,
      if_pos rfl]
  · have hne : subject ≠ d.subject signal := fun h => hown (by rw [h]; rfl)
    have hcode : (failureAlert d signal).signalCode ≠ subject.signal.code := fun h =>
      hown (code_injOn _ hsignal _ hsubject h)
    have hrecovered : (failureAlert d signal).signalCode ≠ subject.signal.code ++ "-recovered" :=
      code_ne_recovered _ hsignal _ hsubject
    rw [if_neg hne, if_neg hcode, if_neg hrecovered, ite_self]

/-- A recovery alert clears the latch of its own subject and touches no other. -/
theorem edge_recovery {d : Domain} {signal : Signal} {subject : Subject}
    (hsignal : signal ∈ monitored) (hsubject : subject.signal ∈ monitored) (id : NotificationId) :
    edge subject ((recoveryAlert d signal).notification id) =
      if subject = d.subject signal then some .fall else none := by
  rw [edge_notification rfl rfl rfl]
  have hfailure : (recoveryAlert d signal).signalCode ≠ subject.signal.code := fun h =>
    code_ne_recovered _ hsubject _ hsignal h.symm
  rw [if_neg hfailure]
  by_cases hown : signal = subject.signal
  · rw [hown, show (recoveryAlert d subject.signal).signalCode =
      subject.signal.code ++ "-recovered" from rfl, if_pos rfl]
  · have hne : subject ≠ d.subject signal := fun h => hown (by rw [h]; rfl)
    have hcode : (recoveryAlert d signal).signalCode ≠ subject.signal.code ++ "-recovered" :=
      fun h => hown (code_injOn _ hsignal _ hsubject (recovered_inj h))
    rw [if_neg hne, if_neg hcode, ite_self]

/-- The notices of a visit lead the latch of their subject from its old value to its new one. -/
theorem edges_notices (v : Visit) (hsignal : signal ∈ monitored) (before : Bool) :
    exec latchStep before ((v.notices signal before).filterMap (edge (v.subject signal))) =
      some (v.probe.shows signal) := by
  have hself : (v.subject signal).signal ∈ monitored := hsignal
  have hfailure := @edge_failure v.domain _ _ hsignal hself (v.newNotification signal)
  have hrecovery := @edge_recovery v.domain _ _ hsignal hself (v.newNotification signal)
  have hown : v.subject signal = v.domain.subject signal := rfl
  rw [if_pos hown] at hfailure hrecovery
  unfold Visit.notices
  cases before <;> cases v.probe.shows signal <;> simp [hfailure, hrecovery, latchStep, exec_cons]

/-- The notices about one subject say nothing about another. -/
theorem edges_notices_ne (v : Visit) (hsignal : signal ∈ monitored)
    (hsubject : subject.signal ∈ monitored) (hne : subject ≠ v.subject signal) (before : Bool) :
    (v.notices signal before).filterMap (edge subject) = [] := by
  have hfailure := @edge_failure v.domain _ _ hsignal hsubject (v.newNotification signal)
  have hrecovery := @edge_recovery v.domain _ _ hsignal hsubject (v.newNotification signal)
  have hne' : subject ≠ v.domain.subject signal := hne
  rw [if_neg hne'] at hfailure hrecovery
  unfold Visit.notices
  cases before <;> cases v.probe.shows signal <;> simp [hfailure, hrecovery]

/-! ## A round, subject by subject -/

variable {db db' : Db} {channels : TenantId → Channels} {v : Visit}

/-- **What a part of the round does.** It concerns the subjects in `K`, and the notifications it
creates, `new`, depend on which of them were open before. -/
structure Tells (K : Subject → Prop) (new : (Subject → Bool) → List Notification)
    (f : Db → Option Db) : Prop where
  oneActive : ∀ db db', OneActive db.incidents → f db = some db' → OneActive db'.incidents
  notifications : ∀ db db', OneActive db.incidents → f db = some db' →
    db'.notifications = db.notifications ++ new (isOpen db.incidents)
  others : ∀ db db', OneActive db.incidents → f db = some db' → ∀ subject, ¬ K subject →
    isOpen db'.incidents subject = isOpen db.incidents subject
  latch : ∀ db db', OneActive db.incidents → f db = some db' →
    ∀ subject, subject.signal ∈ monitored →
      exec latchStep (isOpen db.incidents subject)
        ((new (isOpen db.incidents)).filterMap (edge subject)) =
        some (isOpen db'.incidents subject)
  congr : ∀ o o' : Subject → Bool, (∀ subject, K subject → o subject = o' subject) →
    new o = new o'

/-- Parts that concern different subjects, one after the other. -/
theorem Tells.foldlM {ι : Type} {K : ι → Subject → Prop}
    {new : ι → (Subject → Bool) → List Notification} {f : Db → ι → Option Db} {xs : List ι}
    (hpart : ∀ x ∈ xs, Tells (K x) (new x) (fun db => f db x))
    (hapart : xs.Pairwise (fun x y => ∀ subject, K x subject → ¬ K y subject)) :
    Tells (fun subject => ∃ x ∈ xs, K x subject) (fun o => xs.flatMap (fun x => new x o))
      (fun db => xs.foldlM f db) := by
  induction xs with
  | nil =>
    refine ⟨?_, ?_, ?_, ?_, fun _ _ _ => rfl⟩
    · intro db db' h hrun
      cases hrun
      exact h
    · intro db db' _ hrun
      cases hrun
      simp
    · intro db db' _ hrun _ _
      cases hrun
      rfl
    · intro db db' _ hrun _ _
      cases hrun
      rfl
  | cons x xs ih =>
    obtain ⟨hfirst, hapart'⟩ := List.pairwise_cons.mp hapart
    have hx := hpart x (List.mem_cons_self ..)
    have hxs := ih (fun y hy => hpart y (List.mem_cons_of_mem _ hy)) hapart'
    -- the later parts see the subjects they concern as they were in the beginning
    have hlater : ∀ db mid, OneActive db.incidents → f db x = some mid →
        xs.flatMap (fun y => new y (isOpen mid.incidents)) =
          xs.flatMap (fun y => new y (isOpen db.incidents)) := by
      intro db mid h hmid
      refine hxs.congr _ _ (fun subject hsubject => hx.others db mid h hmid subject ?_)
      obtain ⟨y, hy, hKy⟩ := hsubject
      exact fun hKx => hfirst y hy subject hKx hKy
    have hsplit : ∀ db db', (x :: xs).foldlM f db = some db' →
        ∃ mid, f db x = some mid ∧ xs.foldlM f mid = some db' := by
      intro db db' hrun
      rw [List.foldlM_cons] at hrun
      exact Option.bind_eq_some_iff.mp hrun
    refine ⟨?_, ?_, ?_, ?_, ?_⟩
    · intro db db' h hrun
      obtain ⟨mid, hmid, hrest⟩ := hsplit db db' hrun
      exact hxs.oneActive mid db' (hx.oneActive db mid h hmid) hrest
    · intro db db' h hrun
      obtain ⟨mid, hmid, hrest⟩ := hsplit db db' hrun
      have hnew := hxs.notifications mid db' (hx.oneActive db mid h hmid) hrest
      rw [hnew, hx.notifications db mid h hmid, hlater db mid h hmid, List.append_assoc]
      rfl
    · intro db db' h hrun subject hsubject
      obtain ⟨mid, hmid, hrest⟩ := hsplit db db' hrun
      rw [hxs.others mid db' (hx.oneActive db mid h hmid) hrest subject
          (fun ⟨y, hy, hK⟩ => hsubject ⟨y, List.mem_cons_of_mem _ hy, hK⟩),
        hx.others db mid h hmid subject (fun hK => hsubject ⟨x, List.mem_cons_self .., hK⟩)]
    · intro db db' h hrun subject hsubject
      obtain ⟨mid, hmid, hrest⟩ := hsplit db db' hrun
      have hlast := hxs.latch mid db' (hx.oneActive db mid h hmid) hrest subject hsubject
      rw [hlater db mid h hmid] at hlast
      rw [List.flatMap_cons, List.filterMap_append, exec_append,
        hx.latch db mid h hmid subject hsubject]
      exact hlast
    · intro o o' hoo
      simp only [List.flatMap_cons]
      rw [hx.congr o o' (fun subject hK => hoo subject ⟨x, List.mem_cons_self .., hK⟩),
        hxs.congr o o' (fun subject ⟨y, hy, hK⟩ => hoo subject ⟨y, List.mem_cons_of_mem _ hy, hK⟩)]

theorem code_ok : ∀ a ∈ monitored, a.code ≠ "" ∧ a.code.length ≤ 64 ∧
    a.code ++ "-recovered" ≠ "" ∧ (a.code ++ "-recovered").length ≤ 64 := by decide

theorem alert_eq_some {id : NotificationId} (hcategory : alert.category ∈ alertCategories)
    (hne : alert.signalCode ≠ "") (hlen : alert.signalCode.length ≤ 64)
    (h : db.alert channels now id alert = some db') :
    db'.incidents = db.incidents ∧
      db'.notifications = db.notifications ++ [alert.notification id] := by
  rw [Db.alert, createOperatorAlert_eq_ok hcategory hne hlen] at h
  cases h
  exact ⟨rfl, rfl⟩

/-- What `_observe_domain_signal` does to the incidents and the notifications. -/
theorem observeDomainSignal_spec (hsignal : signal ∈ monitored) (h : OneActive db.incidents)
    (hrun : observeDomainSignal channels v db signal = some db') :
    Observed db.incidents (v.subject signal) (v.probe.shows signal) db'.incidents ∧
      db'.notifications = db.notifications ++
        v.notices signal (isOpen db.incidents (v.subject signal)) := by
  obtain ⟨hne, hlen, hne', hlen'⟩ := code_ok signal hsignal
  have hsite : "site" ∈ alertCategories := by decide
  unfold observeDomainSignal at hrun
  dsimp only at hrun
  cases hobserve : observeAlert db.incidents v.now (v.newIncident signal) (v.subject signal)
      (v.probe.shows signal) with
  | none =>
    rw [hobserve] at hrun
    split at hrun
    · next habsurd => cases habsurd
    · cases hrun
  | some incidents =>
    have hobserved := observeAlert_observed h hobserve
    rw [hobserve] at hrun
    unfold Visit.notices
    rcases scalarOneOrNone_active h (v.subject signal) with
      ⟨hclosed, hnone⟩ | ⟨j, i, hj, hi, hactive, hsome⟩
    · rw [hnone] at hrun
      rw [hclosed]
      cases hshows : v.probe.shows signal with
      | false =>
        rw [hshows] at hrun hobserved
        cases hrun
        exact ⟨hobserved, (List.append_nil _).symm⟩
      | true =>
        rw [hshows] at hrun hobserved
        obtain ⟨hincidents, hnotifications⟩ := alert_eq_some hsite hne hlen hrun
        rw [hincidents]
        exact ⟨hobserved, hnotifications⟩
    · have hopen : isOpen db.incidents (v.subject signal) = true :=
        isOpen_iff.mpr ⟨j, i, hj, hi, hactive⟩
      rw [hsome] at hrun
      rw [hopen]
      cases hshows : v.probe.shows signal with
      | true =>
        rw [hshows] at hrun hobserved
        cases hrun
        exact ⟨hobserved, (List.append_nil _).symm⟩
      | false =>
        rw [hshows] at hrun hobserved
        obtain ⟨hincidents, hnotifications⟩ := alert_eq_some hsite hne' hlen' hrun
        rw [hincidents]
        exact ⟨hobserved, hnotifications⟩

theorem observeDomainSignal_tells (channels : TenantId → Channels) (v : Visit)
    (hsignal : signal ∈ monitored) :
    Tells (fun subject => subject = v.subject signal)
      (fun o => v.notices signal (o (v.subject signal)))
      (fun db => observeDomainSignal channels v db signal) := by
  refine ⟨fun db db' h hrun => (observeDomainSignal_spec hsignal h hrun).1.oneActive,
    fun db db' h hrun => (observeDomainSignal_spec hsignal h hrun).2,
    fun db db' h hrun => (observeDomainSignal_spec hsignal h hrun).1.others,
    fun db db' h hrun subject hsubject => ?_, fun o o' hoo => by rw [hoo _ rfl]⟩
  have hobserved := (observeDomainSignal_spec hsignal h hrun).1
  by_cases hown : subject = v.subject signal
  · rw [hown, edges_notices v hsignal, hobserved.shown]
  · rw [edges_notices_ne v hsignal hsubject hown, hobserved.others subject hown]
    rfl

/-- The notifications of a visit. -/
def Visit.notifications (v : Visit) (o : Subject → Bool) : List Notification :=
  monitored.flatMap (fun signal => v.notices signal (o (v.subject signal)))

theorem subject_signal_inj {a b : Signal} (h : v.subject a = v.subject b) : a = b :=
  congrArg Subject.signal h

/-- One domain of the round. -/
theorem monitorDomain_tells (channels : TenantId → Channels) (v : Visit) :
    Tells (fun subject => ∃ signal ∈ monitored, subject = v.subject signal) v.notifications
      (fun db => monitorDomain channels db v) := by
  have hsignals : Tells (fun subject => ∃ signal ∈ monitored, subject = v.subject signal)
      v.notifications (fun db => monitored.foldlM (observeDomainSignal channels v) db) :=
    Tells.foldlM (fun signal hsignal => observeDomainSignal_tells channels v hsignal)
      ((by decide : monitored.Nodup).imp (fun {a b} hab subject ha hb =>
        hab (subject_signal_inj (ha.symm.trans hb))))
  -- the observation is recorded first, which neither incidents nor notifications show
  let noted : Db → Db := fun db =>
    { db with observations := db.observations ++ [⟨v.domain, v.probe, v.now⟩] }
  have hrest : ∀ db db', monitorDomain channels db v = some db' →
      monitored.foldlM (observeDomainSignal channels v) (noted db) = some db' := by
    intro db db' hrun
    unfold monitorDomain at hrun
    split_ifs at hrun
    exact hrun
  exact ⟨fun db db' h hrun => hsignals.oneActive (noted db) db' h (hrest db db' hrun),
    fun db db' h hrun => hsignals.notifications (noted db) db' h (hrest db db' hrun),
    fun db db' h hrun => hsignals.others (noted db) db' h (hrest db db' hrun),
    fun db db' h hrun => hsignals.latch (noted db) db' h (hrest db db' hrun), hsignals.congr⟩

/-- The round. -/
theorem monitorPublishedDomains_tells (channels : TenantId → Channels) {visits : List Visit}
    (hn : (visits.map (·.domain.id)).Nodup) :
    Tells (fun subject => ∃ v ∈ visits, ∃ signal ∈ monitored, subject = v.subject signal)
      (fun o => visits.flatMap (fun v => v.notifications o))
      (fun db => monitorPublishedDomains channels db visits) := by
  refine Tells.foldlM (fun v _ => monitorDomain_tells channels v) ?_
  refine (List.pairwise_map.mp hn).imp (fun {v w} hvw subject hv hw => ?_)
  obtain ⟨a, _, rfl⟩ := hv
  obtain ⟨b, _, hb⟩ := hw
  exact hvw (Uuid.str_injective (congrArg Subject.key hb))

/-! ## What a step tells -/

variable {i i' : AlertIncident} {action : IncidentAction} {a : Action}

/-- The notifications a step creates. -/
def newNotifications (db db' : Db) : List Notification :=
  db'.notifications.drop db.notifications.length

/-- An operator resolves the incident of the subject by hand. -/
def released (subject : Subject) (db : Db) : Action → List Edge
  | .update id .resolve _ =>
    match db.incidents.get id with
    | some i => if i.subject = subject ∧ i.isActive = true then [.release] else []
    | none => []
  | _ => []

/-- What a step tells about a subject: its alerts, and its resolution by hand. -/
def edges (subject : Subject) (db : Db) (a : Action) : List Edge :=
  match step db a with
  | some db' => (newNotifications db db').filterMap (edge subject) ++ released subject db a
  | none => []

/-- A transition concerns its own incident, and ends it only by hand. -/
theorem transitionIncident_spec (h : transitionIncident i now action = .ok i') :
    i'.subject = i.subject ∧
      i'.isActive = (i.isActive && decide (action ≠ .resolve)) := by
  cases action with
  | acknowledge =>
    cases h
    by_cases hopen : i.status = .opened <;> simp [AlertIncident.isActive, hopen]
  | resolve =>
    cases h
    by_cases hresolved : i.status = .resolved <;> simp [AlertIncident.isActive, hresolved]
  | snooze minutes =>
    simp only [transitionIncident] at h
    split_ifs at h
    cases h
    simp [AlertIncident.isActive]

theorem newNotifications_append {new : List Notification}
    (h : db'.notifications = db.notifications ++ new) : newNotifications db db' = new := by
  rw [newNotifications, h, List.drop_left]

theorem newNotifications_incidents (db : Db) (incidents : Incidents) :
    newNotifications db { db with incidents := incidents } = [] :=
  newNotifications_append (List.append_nil _).symm

/-- A transition and the latches: only a resolution by hand is seen. -/
theorem update_latch (h : OneActive db.incidents) (hget : db.incidents.get id = some i)
    (hi' : transitionIncident i now action = .ok i') :
    OneActive (db.incidents.set id i') ∧ ∀ subject,
      exec latchStep (isOpen db.incidents subject) (released subject db (.update id action now)) =
        some (isOpen (db.incidents.set id i') subject) := by
  obtain ⟨hsubject, hactive⟩ := transitionIncident_spec hi'
  cases hopen : i.isActive with
  | false =>
    -- the incident is over already
    rw [hopen, Bool.false_and] at hactive
    refine ⟨oneActive_set h (fun hnew => ?_), fun subject => ?_⟩
    · rw [hactive] at hnew
      cases hnew
    · have hnothing : released subject db (.update id action now) = [] := by
        cases action <;> simp [released, hget, hopen]
      rw [hnothing, isOpen_set_inactive hget hopen hactive, exec_nil]
  | true =>
    rw [hopen, Bool.true_and] at hactive
    refine ⟨oneActive_set h (fun _ j k hj hk hjk => ?_), fun subject => ?_⟩
    · exact h j id k i hj hget hk hopen (hjk.trans hsubject)
    by_cases hown : subject = i.subject
    · subst hown
      have hbefore : isOpen db.incidents i.subject = true :=
        isOpen_iff.mpr ⟨id, i, hget, rfl, hopen⟩
      by_cases hresolve : action = .resolve
      · subst hresolve
        have hafter := isOpen_set_ended h hget hopen hsubject hactive
        rw [hsubject] at hafter
        have hrelease : released i.subject db (.update id .resolve now) = [.release] := by
          simp [released, hget, hopen]
        rw [hbefore, hafter, hrelease]
        rfl
      · have hafter := @isOpen_set_active db.incidents id i' (by simpa [hresolve] using hactive)
        rw [hsubject] at hafter
        have hnothing : released i.subject db (.update id action now) = [] := by
          cases action <;> first | rfl | exact absurd rfl hresolve
        rw [hbefore, hafter, hnothing, exec_nil]
    · have hother := @isOpen_set_ne db.incidents id i' subject (hsubject ▸ hown)
        (fun old hold => by rw [hget] at hold; cases hold; exact hsubject.symm)
      have hnothing : released subject db (.update id action now) = [] := by
        cases action <;> simp [released, hget, Ne.symm hown]
      rw [hother, hnothing, exec_nil]

/-- **One step and the latches.** The edges of a step lead each latch from its value before the
step to its value after it. -/
theorem step_latch (h : OneActive db.incidents) (hstep : step db a = some db') :
    OneActive db'.incidents ∧ ∀ subject, subject.signal ∈ monitored →
      exec latchStep (isOpen db.incidents subject) (edges subject db a) =
        some (isOpen db'.incidents subject) := by
  have hedges : ∀ subject, edges subject db a =
      (newNotifications db db').filterMap (edge subject) ++ released subject db a := by
    intro subject
    rw [edges, hstep]
  simp only [hedges]
  cases a with
  | monitor channels visits =>
    simp only [step] at hstep
    split at hstep
    · next hn =>
      have htells := monitorPublishedDomains_tells channels hn
      refine ⟨htells.oneActive db db' h hstep, fun subject hsubject => ?_⟩
      have hnothing : released subject db (.monitor channels visits) = [] := rfl
      rw [newNotifications_append (htells.notifications db db' h hstep), hnothing,
        List.append_nil]
      exact htells.latch db db' h hstep subject hsubject
    · cases hstep
  | update id action now =>
    obtain ⟨i, hget, hmap⟩ := Option.bind_eq_some_iff.mp hstep
    obtain ⟨i', hi', rfl⟩ := Option.map_eq_some_iff.mp hmap
    obtain ⟨hone, hlatch⟩ := update_latch h hget (toOption_eq_some.mp hi')
    refine ⟨hone, fun subject _ => ?_⟩
    rw [newNotifications_incidents]
    exact hlatch subject
  | observe now id subject on =>
    simp only [step] at hstep
    split_ifs at hstep with hsignal
    obtain ⟨incidents, hobserve, rfl⟩ := Option.map_eq_some_iff.mp hstep
    have hobserved := observeAlert_observed h hobserve
    refine ⟨hobserved.oneActive, fun other hother => ?_⟩
    have hne : other ≠ subject := fun heq => hsignal (heq ▸ hother)
    rw [newNotifications_incidents, hobserved.others other hne]
    rfl

/-! ## What a recovery alert says -/

variable {o : Subject → Bool} {n : Notification}

/-- **Recovery alerts are true**: a round creates one for a domain only if its probe of the
domain reports no failure. -/
def TrueRecoveries (db : Db) (a : Action) (db' : Db) : Prop :=
  match a with
  | .monitor _ visits => ∀ v ∈ visits, ∀ n ∈ newNotifications db db',
      n.tenantId = v.domain.tenantId → n.subjectKind = some "domain" →
        n.subjectKey = some v.domain.id.str →
          (∃ code, n.signalCode = some (code ++ "-recovered")) → v.probe.signalCode = none
  | _ => True

/-- In a round whose probe of a domain reports a failure, the open incidents of the domain
belong to signals that this probe shows. -/
def NoOtherIncident (db : Db) (a : Action) : Prop :=
  match a with
  | .monitor _ visits => ∀ v ∈ visits, v.probe.signalCode = none ∨
      ∀ signal ∈ monitored, isOpen db.incidents (v.subject signal) = true →
        v.probe.shows signal = true
  | _ => True

instance (db : Db) (a : Action) : Decidable (NoOtherIncident db a) := by
  cases a <;> unfold NoOtherIncident <;> infer_instance

/-- The recovery alerts of a visit. -/
theorem mem_notifications_recovery {code : String} (hn : n ∈ v.notifications o)
    (hcode : n.signalCode = some (code ++ "-recovered")) :
    ∃ signal ∈ monitored, o (v.subject signal) = true ∧ v.probe.shows signal = false := by
  obtain ⟨signal, hsignal, hn⟩ := List.mem_flatMap.mp hn
  refine ⟨signal, hsignal, ?_⟩
  unfold Visit.notices at hn
  cases hbefore : o (v.subject signal) <;> cases hshows : v.probe.shows signal <;>
    rw [hbefore, hshows] at hn
  · cases hn
  · -- the code of a failure is no code of a recovery
    rw [List.mem_singleton] at hn
    rw [hn, show ((failureAlert v.domain signal).notification (v.newNotification signal)).signalCode
      = some signal.code from rfl, Option.some.injEq] at hcode
    refine absurd ⟨code.toList, ?_⟩ (not_suffix_code signal hsignal)
    rw [hcode, String.toList_append]
  · exact ⟨rfl, rfl⟩
  · cases hn

/-- The notifications of a visit are addressed to its domain. -/
theorem mem_notifications_key (hn : n ∈ v.notifications o) :
    n.subjectKey = some v.domain.id.str := by
  obtain ⟨signal, _, hn⟩ := List.mem_flatMap.mp hn
  have hkey := bounded_str v.domain.id
  unfold Visit.notices at hn
  cases hbefore : o (v.subject signal) <;> cases hshows : v.probe.shows signal <;>
    rw [hbefore, hshows] at hn <;> simp only [List.not_mem_nil, List.mem_singleton] at hn
  · rw [hn]
    exact congrArg some hkey
  · rw [hn]
    exact congrArg some hkey

/-- **One step and what its recovery alerts say.** -/
theorem trueRecoveries_step (h : OneActive db.incidents) (hstep : step db a = some db') :
    TrueRecoveries db a db' ↔ NoOtherIncident db a := by
  cases a with
  | update id action now | observe now id subject on => exact Iff.rfl
  | monitor channels visits =>
    simp only [step] at hstep
    split at hstep
    case isFalse => cases hstep
    next hnodup =>
    have hnew := newNotifications_append
      ((monitorPublishedDomains_tells channels hnodup).notifications db db' h hstep)
    simp only [TrueRecoveries, NoOtherIncident, hnew]
    constructor
    · intro htrue v hv
      by_contra hother
      rw [not_or] at hother
      obtain ⟨hfails, hother⟩ := hother
      simp only [not_forall] at hother
      obtain ⟨signal, hsignal, hopen, hshows⟩ := hother
      rw [Bool.not_eq_true] at hshows
      refine hfails (htrue v hv
        ((recoveryAlert v.domain signal).notification (v.newNotification signal)) ?_ rfl ?_ ?_
        ⟨signal.code, rfl⟩)
      · refine List.mem_flatMap.mpr ⟨v, hv, List.mem_flatMap.mpr ⟨signal, hsignal, ?_⟩⟩
        unfold Visit.notices
        rw [hopen, hshows]
        exact List.mem_singleton_self _
      · exact congrArg some (by decide : bounded (orElse (some "domain") "system") 32 = "domain")
      · exact congrArg some (bounded_str v.domain.id)
    · intro hsettled v hv n hn _ _ hkey hrecovery
      obtain ⟨w, hw, hn⟩ := List.mem_flatMap.mp hn
      obtain ⟨code, hcode⟩ := hrecovery
      -- the alert is one of the visit of its own domain
      have hkeys : w.domain.id = v.domain.id := by
        rw [mem_notifications_key hn] at hkey
        exact Uuid.str_injective (Option.some.inj hkey)
      have hwv : w = v := List.inj_on_of_nodup_map hnodup hw hv hkeys
      subst hwv
      obtain ⟨signal, hsignal, hopen, hshows⟩ := mem_notifications_recovery hn hcode
      rcases hsettled w hw with hnone | hshown
      · exact hnone
      · rw [hshown signal hsignal hopen] at hshows
        cases hshows

/-! ## Runs -/

theorem trueRecoveries_along (h : OneActive db.incidents) (as : List Action) :
    Along step TrueRecoveries db as ↔ Along step (fun db a _ => NoOtherIncident db a) db as :=
  along_iff (fun _ _ _ hi hstep => (step_latch hi hstep).1)
    (fun _ _ _ hi hstep => trueRecoveries_step hi hstep) h

theorem alternates_run (h : OneActive db.incidents) (as : List Action)
    (hsubject : subject.signal ∈ monitored) :
    Alternates (isOpen db.incidents subject) (emitted step (edges subject) db as) :=
  @alternates_emitted _ _ step (edges subject) (fun db => isOpen db.incidents subject)
    (fun db => OneActive db.incidents) (fun _ _ _ hi hstep =>
      ⟨(step_latch hi hstep).1, (step_latch hi hstep).2 subject hsubject⟩) db h as

/-- **Recovery notices.** Along a run of rounds and operator transitions every recovery alert is
true, and the alerts of each signal of each domain alternate, exactly when no round meets a
domain that fails in one way while it has an open incident for another. -/
theorem recovery_iff {db : Db} (h : OneActive db.incidents) (as : List Action) :
    (Along step TrueRecoveries db as ∧ ∀ (d : Domain) (signal : Signal), signal ∈ monitored →
        Alternates (isOpen db.incidents (d.subject signal))
          (emitted step (edges (d.subject signal)) db as)) ↔
      Along step (fun db a _ => NoOtherIncident db a) db as := by
  rw [trueRecoveries_along h as]
  exact and_iff_left (fun d signal hsignal => alternates_run h as hsignal)

/-! ## Two runs -/

def Db.empty : Db := ⟨Table.empty, [], [], []⟩

def exampleDomain : Domain := ⟨⟨1, Uuid.one_lt⟩, 0, 0, "example.ru"⟩

def noChannels : TenantId → Channels := fun _ => ⟨false, false, none, none⟩

/-- A round that visits one domain at the time `now`. -/
def visitAt (now : Time) (network : Network) : Action :=
  .monitor noChannels [⟨exampleDomain, now, network, fun _ => ⟨now % 2 ^ 128, by omega⟩,
    fun _ => ⟨now % 2 ^ 128, by omega⟩⟩]

/-- The domain does not resolve. -/
def noAddress : Network := ⟨[], .failed .network⟩

/-- The domain resolves, but the handshake fails. -/
def badCertificate : Network := ⟨["203.0.113.1"], .failed .ssl⟩

/-- The domain answers `200`. -/
def healthy : Network :=
  ⟨["203.0.113.1"], .opened none (.ok [72, 84, 84, 80, 32, 50, 48, 48, 13, 10])⟩

theorem oneActive_empty : OneActive Db.empty.incidents := by
  intro id j a b ha
  cases ha

theorem recovery_iff_repaired :
    (Along step TrueRecoveries Db.empty [visitAt 1 noAddress, visitAt 2 healthy] ∧
      ∀ (d : Domain) (signal : Signal), signal ∈ monitored →
        Alternates (isOpen Db.empty.incidents (d.subject signal))
          (emitted step (edges (d.subject signal)) Db.empty
            [visitAt 1 noAddress, visitAt 2 healthy])) :=
  (recovery_iff oneActive_empty _).mpr (by decide +kernel)

/-- The address record comes back and the certificate is bad: the domain is announced as
recovered in a round that finds it failing. -/
theorem recovery_announced_failing :
    ¬ Along step TrueRecoveries Db.empty [visitAt 1 noAddress, visitAt 2 badCertificate] := by
  rw [trueRecoveries_along oneActive_empty]
  decide +kernel

end MegaPanel.Incidents

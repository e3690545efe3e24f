import MegaPanel.AlertDelivery.Dispatch

set_option autoImplicit false

/-! # One failing alert and the others

A delivery whose dispatch raises an exception that no dispatcher names stays `processing`, and the
sweep ends there: the deliveries behind it are not worked on. `Sendable` lists when a dispatch
returns; the sweep works on every delivery it selects exactly when all of them are sendable. The
induction over the selected ids rests on one fact: working on a delivery changes its own rows only
(`Elsewhere`).
-/

namespace MegaPanel.AlertDelivery

open MegaPanel.Lib

/-! ## When a dispatch returns -/

variable {t : OperatorAlertTransport}

/-- The transport that the delivery was queued for is the tenant's transport still. -/
def Services.InForce (services : Services) (row : AlertRow) (t : OperatorAlertTransport) : Prop :=
  services.transport row.tenantId = some t ∧ t.transport = row.channel ∧
    some t.revision = row.transportRevision

/-- The message has a code to name, and each header is one line. -/
structure PlainHeaders (services : Services) (t : OperatorAlertTransport) (recipient : String)
    (n : Notification) : Prop where
  subject : ∃ subject, alertEmailSubject services n = .ok subject ∧
    isOneLine subject.toList = true
  sender : isOneLine (t.senderEmail.getD "").toList = true
  recipient : isOneLine recipient.toList = true

/-- The stored credentials decrypt to texts that are not empty. -/
def Services.Decrypts (services : Services) (t : OperatorAlertTransport) : Prop :=
  truthy (services.decryptOrNone t.smtpUsernameEnc) = true ∧
    truthy (services.decryptOrNone t.smtpPasswordEnc) = true

/-- A mail over SMTP can be sent, or fails in a way that is named. -/
def SmtpSendable (services : Services) (n : Notification) (t : OperatorAlertTransport)
    (session : SmtpSession) : Prop :=
  truthy (services.operatorEmail n.tenantId) = true → t.isReady = true →
    t.transport = "smtp_bz_smtp" →
    PlainHeaders services t ((services.operatorEmail n.tenantId).getD "") n ∧
      (session.connect = none → session.quit = none → services.Decrypts t)

/-- A mail over the API has a code to name, unless the configuration is refused first. -/
def ApiSendable (services : Services) (n : Notification) (t : OperatorAlertTransport) : Prop :=
  truthy (services.operatorEmail n.tenantId) = true → truthy t.senderEmail = true →
    truthy (services.decryptOrNone t.apiAuthorizationEnc) = true → n.signalCode ≠ none

/-- The dispatch of the delivery returns an answer. -/
def Sendable (services : Services) (row : AlertRow) (n : Notification) (turn : Turn) : Prop :=
  ∀ t, services.InForce row t →
    (row.channel = "smtp_bz_smtp" → SmtpSendable services n t turn.smtp) ∧
      (row.channel = "smtp_bz_api" → ApiSendable services n t)

theorem alertEmailSubject_ok_iff {services : Services} {n : Notification} :
    (∃ subject, alertEmailSubject services n = .ok subject) ↔ n.signalCode ≠ none := by
  unfold alertEmailSubject emailAlertKind
  cases n.signalCode with
  | none =>
    refine iff_of_false ?_ (fun h => h rfl)
    rintro ⟨subject, h⟩
    cases h
  | some code =>
    refine iff_of_true ?_ (fun h => nomatch h)
    dsimp only
    split_ifs <;> exact ⟨_, rfl⟩

/-- A ready mail transport has its sender, a port and a mode. -/
theorem smtpClient_of_ready (hready : t.isReady = true) (htransport : t.transport = "smtp_bz_smtp")
    (session : SmtpSession) :
    truthy t.senderEmail = true ∧
      smtpClient t session = raiseSmtp session.connect := by
  unfold OperatorAlertTransport.isReady at hready
  rw [htransport, if_neg (by decide), if_pos rfl] at hready
  simp only [Bool.and_eq_true] at hready
  obtain ⟨⟨⟨hsender, hport⟩, -⟩, -⟩ := hready
  refine ⟨hsender, ?_⟩
  cases hsome : t.smtpPort with
  | none =>
    rw [hsome] at hport
    cases hport
  | some port =>
    rw [hsome, Option.any_some, decide_eq_true_eq] at hport
    have hmode : knownMode t.smtpTlsMode = true := by
      cases hm : t.smtpTlsMode with
      | none =>
        rw [hm] at hport
        exact absurd hport (by simp [smtpBzSmtpPorts])
      | some mode =>
        rw [hm, Option.getD_some] at hport
        by_cases hstart : mode = "starttls"
        · simp [knownMode, hstart]
        by_cases himplicit : mode = "implicit_tls"
        · simp [knownMode, himplicit]
        · simp [smtpBzSmtpPorts, hstart, himplicit] at hport
    rw [smtpClient, hsome, hmode, if_neg (by simp)]

/-- An exception that is not named escapes; all others are answers. -/
theorem smtpAnswer_ok_iff {result : Except SendError Unit} :
    (∃ answer, smtpAnswer result = .ok answer) ↔ ∀ e, result ≠ .error (.unnamed e) := by
  match result with
  | .ok () | .error (.named e) | .error (.unnamed e) => simp [smtpAnswer]

/-- The mail part raises nothing unnamed exactly when the mail is sendable. -/
theorem dispatchSmtp_ok_iff {services : Services} {n : Notification}
    (htransport : t.transport = "smtp_bz_smtp") (session : SmtpSession) :
    (∃ answer, dispatchSmtp services n t session = .ok answer) ↔
      SmtpSendable services n t session := by
  unfold dispatchSmtp SmtpSendable
  by_cases hconfig : truthy (services.operatorEmail n.tenantId) = false ∨ t.isReady = false
  · rw [if_pos hconfig]
    refine iff_of_true ⟨_, rfl⟩ (fun hrecipient hready _ => ?_)
    rcases hconfig with h | h
    · rw [hrecipient] at h
      cases h
    · rw [hready] at h
      cases h
  · rw [if_neg hconfig]
    obtain ⟨hrecipient, hready⟩ := not_or.mp hconfig
    rw [Bool.not_eq_false] at hrecipient hready
    obtain ⟨hsender, hclient⟩ := smtpClient_of_ready hready htransport session
    simp only [hrecipient, hready, htransport, true_implies]
    rw [smtpAnswer_ok_iff]
    unfold sendSmtp
    rw [hsender, if_neg (by simp)]
    cases hsubject : alertEmailSubject services n with
    | error e =>
      refine iff_of_false (fun h => h e rfl) ?_
      rintro ⟨⟨⟨subject, hok, -⟩, -, -⟩, -⟩
      rw [hsubject] at hok
      cases hok
    | ok subject =>
      have hplain : PlainHeaders services t
          ((services.operatorEmail n.tenantId).getD "") n ↔
          isOneLine subject.toList = true ∧ isOneLine (t.senderEmail.getD "").toList = true ∧
            isOneLine ((services.operatorEmail n.tenantId).getD "").toList = true := by
        constructor
        · rintro ⟨⟨subject', hok, hline⟩, hs, hr⟩
          cases hsubject.symm.trans hok
          exact ⟨hline, hs, hr⟩
        · rintro ⟨hline, hs, hr⟩
          exact ⟨⟨subject, hsubject, hline⟩, hs, hr⟩
      rw [hplain]
      simp only [setHeader, hclient, Services.Decrypts]
      by_cases hline : isOneLine subject.toList = true
      · by_cases hs : isOneLine (t.senderEmail.getD "").toList = true
        · by_cases hr : isOneLine
              ((services.operatorEmail n.tenantId).getD "").toList = true
          · rw [if_pos hline, if_pos hs, if_pos hr]
            cases hconnect : session.connect with
            | some e => simp [hline, hs, hr, raiseSmtp, bind, Except.bind]
            | none =>
              cases hquit : session.quit with
              | some e => simp [hline, hs, hr, leave, raiseSmtp, bind, Except.bind]
              | none =>
                by_cases huser :
                    truthy (services.decryptOrNone t.smtpUsernameEnc) = true
                · by_cases hpass :
                      truthy (services.decryptOrNone t.smtpPasswordEnc) = true
                  · cases hexchange : session.exchange with
                    | none =>
                      simp [hline, hs, hr, leave, loginAndSend, raiseSmtp, huser, hpass, hexchange,
                        bind, Except.bind]
                    | some e =>
                      simp [hline, hs, hr, leave, loginAndSend, raiseSmtp, huser, hpass, hexchange,
                        bind, Except.bind]
                  · simp [hline, hs, hr, leave, loginAndSend, raiseSmtp, huser, hpass, bind,
                      Except.bind]
                · simp [hline, hs, hr, leave, loginAndSend, raiseSmtp, huser, bind, Except.bind]
          · simp [hline, hs, hr, bind, Except.bind]
        · simp [hline, hs, bind, Except.bind]
      · simp [hline, bind, Except.bind]

theorem dispatchSmtpBzApi_ok_iff {services : Services} {n : Notification} (result : HttpResult) :
    (∃ answer, dispatchSmtpBzApi services n t result = .ok answer) ↔
      ApiSendable services n t := by
  unfold dispatchSmtpBzApi ApiSendable
  by_cases hconfig : truthy (services.operatorEmail n.tenantId) = false ∨
      truthy t.senderEmail = false ∨
      truthy (services.decryptOrNone t.apiAuthorizationEnc) = false
  · rw [if_pos hconfig]
    refine iff_of_true ⟨_, rfl⟩ (fun hrecipient hsender hauthorization => ?_)
    rw [hrecipient, hsender, hauthorization] at hconfig
    simp at hconfig
  rw [if_neg hconfig]
  obtain ⟨hrecipient, hrest⟩ := not_or.mp hconfig
  obtain ⟨hsender, hauthorization⟩ := not_or.mp hrest
  rw [Bool.not_eq_false] at hrecipient hsender hauthorization
  simp only [hrecipient, hsender, hauthorization, true_implies]
  rw [← @alertEmailSubject_ok_iff services n]
  cases hsubject : alertEmailSubject services n with
  | error e =>
    refine iff_of_false ?_ ?_
    · rintro ⟨answer, h⟩
      cases h
    · rintro ⟨subject, h⟩
      cases h
  | ok subject =>
    refine iff_of_true ?_ ⟨subject, rfl⟩
    cases result with
    | timeout => exact ⟨_, rfl⟩
    | httpError => exact ⟨_, rfl⟩
    | response code =>
      show ∃ answer, (if 200 ≤ code ∧ code < 300 then _ else _) = _
      split_ifs <;> exact ⟨_, rfl⟩

/-- **When a dispatch returns.** -/
theorem dispatch_ok_iff {services : Services} {row : AlertRow} {n : Notification} {turn : Turn} :
    (∃ answer, dispatch services row n turn = .ok answer) ↔ Sendable services row n turn := by
  unfold dispatch Sendable
  by_cases htelegram : row.channel = "telegram"
  · rw [if_pos htelegram]
    refine iff_of_true ⟨_, rfl⟩ (fun t _ => ?_)
    rw [htelegram]
    exact ⟨fun h => absurd h (by decide), fun h => absurd h (by decide)⟩
  rw [if_neg htelegram]
  by_cases hother : row.channel ≠ "smtp_bz_smtp" ∧ row.channel ≠ "smtp_bz_api"
  · rw [if_pos hother]
    exact iff_of_true ⟨_, rfl⟩
      (fun t _ => ⟨fun h => absurd h hother.1, fun h => absurd h hother.2⟩)
  rw [if_neg hother]
  cases htransport : services.transport row.tenantId with
  | none =>
    refine iff_of_true ⟨_, rfl⟩ (fun t ht => ?_)
    rw [Services.InForce, htransport] at ht
    cases ht.1
  | some t =>
    have hforce : ∀ u, services.InForce row u ↔
        u = t ∧ t.transport = row.channel ∧ some t.revision = row.transportRevision := by
      intro u
      rw [Services.InForce, htransport, Option.some.injEq]
      constructor
      · rintro ⟨rfl, h⟩
        exact ⟨rfl, h⟩
      · rintro ⟨rfl, h⟩
        exact ⟨rfl, h⟩
    dsimp only
    by_cases hchanged : t.transport ≠ row.channel ∨ some t.revision ≠ row.transportRevision
    · rw [if_pos hchanged]
      refine iff_of_true ⟨_, rfl⟩ (fun u hu => ?_)
      obtain ⟨-, hkind, hrevision⟩ := (hforce u).mp hu
      exact absurd hchanged (not_or.mpr ⟨not_not.mpr hkind, not_not.mpr hrevision⟩)
    rw [if_neg hchanged]
    obtain ⟨hkind, hrevision⟩ := not_or.mp hchanged
    rw [not_not] at hkind hrevision
    have hall : (∀ u, services.InForce row u →
        (row.channel = "smtp_bz_smtp" → SmtpSendable services n u turn.smtp) ∧
          (row.channel = "smtp_bz_api" → ApiSendable services n u)) ↔
        (row.channel = "smtp_bz_smtp" → SmtpSendable services n t turn.smtp) ∧
          (row.channel = "smtp_bz_api" → ApiSendable services n t) := by
      constructor
      · exact fun h => h t ((hforce t).mpr ⟨rfl, hkind, hrevision⟩)
      · intro h u hu
        obtain ⟨rfl, -⟩ := (hforce u).mp hu
        exact h
    rw [hall]
    by_cases hsmtp : row.channel = "smtp_bz_smtp"
    · rw [if_pos hsmtp, dispatchSmtp_ok_iff (hkind.trans hsmtp)]
      have hapi : row.channel ≠ "smtp_bz_api" := by
        rw [hsmtp]
        decide
      exact ⟨fun h => ⟨fun _ => h, fun ha => absurd ha hapi⟩, fun h => h.1 hsmtp⟩
    · have hapi : row.channel = "smtp_bz_api" := by
        by_contra h
        exact hother ⟨hsmtp, h⟩
      rw [if_neg hsmtp, dispatchSmtpBzApi_ok_iff]
      exact ⟨fun h => ⟨fun hs => absurd hs hsmtp, fun _ => h⟩, fun h => h.2 hapi⟩

/-! ## One delivery -/

/-- The constraints of the tables: a delivery has its notification, and no attempt has a sequence
beyond the count of its delivery. -/
structure Store.Consistent (s : Store) : Prop where
  notification : ∀ id row, s.deliveries.get id = some row →
    ∃ n, s.notifications row.notificationId = some n
  attempts : ∀ id row k, s.deliveries.get id = some row → (s.attempts.get (id, k)).isSome →
    k ≤ row.attemptCount

/-- An attempt is over. -/
def Status.IsFinal (status : Status) : Prop :=
  status = .delivered ∨ status = .retrying ∨ status = .deadLetter

/-- A new attempt has been made, and the delivery and the attempt have its outcome. -/
def Processed (s s' : Store) (id : DeliveryId) : Prop :=
  ∃ before after a, s.deliveries.get id = some before ∧ s'.deliveries.get id = some after ∧
    after.attemptCount = before.attemptCount + 1 ∧
    s'.attempts.get (id, after.attemptCount) = some a ∧
    after.status.IsFinal ∧ a.status = after.status

/-- The rows of the delivery are as they were. -/
structure SameAt (s s' : Store) (id : DeliveryId) : Prop where
  delivery : s'.deliveries.get id = s.deliveries.get id
  attempts : ∀ k, s'.attempts.get (id, k) = s.attempts.get (id, k)

/-- Only the rows of one delivery have changed. -/
structure Elsewhere (s s' : Store) (id : DeliveryId) : Prop where
  notifications : s'.notifications = s.notifications
  others : ∀ other, other ≠ id → SameAt s s' other

theorem Elsewhere.refl (s : Store) (id : DeliveryId) : Elsewhere s s id :=
  ⟨rfl, fun _ _ => ⟨rfl, fun _ => rfl⟩⟩

theorem elsewhere_set (s : Store) (id : DeliveryId) (row : AlertRow) (sequence : Nat)
    (a : Attempt) : Elsewhere s ((s.setDelivery id row).setAttempt id sequence a) id := by
  refine ⟨rfl, fun other hother => ⟨s.deliveries.get_set_ne hother row, fun k => ?_⟩⟩
  exact s.attempts.get_set_ne (fun h => hother (Prod.mk.inj h).1) a

theorem Elsewhere.trans {s t u : Store} {id : DeliveryId} (hst : Elsewhere s t id)
    (htu : Elsewhere t u id) : Elsewhere s u id :=
  ⟨htu.notifications.trans hst.notifications, fun other hother =>
    ⟨(htu.others other hother).delivery.trans (hst.others other hother).delivery,
      fun k => ((htu.others other hother).attempts k).trans ((hst.others other hother).attempts k)⟩⟩

/-- The delivery can be worked on at the time. -/
structure Open (s : Store) (start : Time) (id : DeliveryId) (turn : Turn) (row : AlertRow)
    (n : Notification) : Prop where
  stored : s.deliveries.get id = some row
  found : s.notifications row.notificationId = some n
  free : turn.locked = false
  claimable : row.toDelivery.isClaimable (start + turn.claimedAfter) = true

theorem outcome_isFinal (d : Delivery) (answer : Answer) : (d.outcome answer).IsFinal := by
  unfold Delivery.outcome Status.IsFinal
  split_ifs
  · exact .inl rfl
  · exact .inr (.inl rfl)
  · exact .inr (.inr rfl)

theorem status_finish (row : AlertRow) (now : Time) (answer : Answer) :
    (row.finish now answer).status = row.toDelivery.outcome answer := by
  show (row.toDelivery.finish now answer).status = _
  unfold Delivery.finish
  cases h : row.toDelivery.outcome answer <;> rfl

theorem attemptCount_finish (row : AlertRow) (now : Time) (answer : Answer) :
    (row.finish now answer).attemptCount = row.attemptCount := by
  show (row.toDelivery.finish now answer).attemptCount = _
  unfold Delivery.finish
  cases h : row.toDelivery.outcome answer <;> rfl

theorem notificationId_finish (row : AlertRow) (now : Time) (answer : Answer) :
    (row.finish now answer).notificationId = row.notificationId := rfl

theorem elsewhere_settle (s : Store) (id : DeliveryId) (row row' : AlertRow) (a : Attempt)
    (now later : Time) (answer : Answer) :
    Elsewhere s ((s.claim id row now).settle id row' a later answer) id :=
  (elsewhere_set s id (row.claim now) _ Attempt.begin).trans
    (elsewhere_set (s.claim id row now) id (row'.finish later answer) _ _)

section Process

variable {services : Services} {start : Time} {s : Store} {id : DeliveryId} {turn : Turn}
  {row : AlertRow} {n : Notification}

/-- What is dispatched is the row with a new attempt. -/
theorem process_open (hs : s.Consistent) (h : Open s start id turn row n) :
    processAlertDelivery services start s id turn =
      match dispatch services (row.claim (start + turn.claimedAfter)) n turn with
      | .error e => (s.claim id row (start + turn.claimedAfter), .error e)
      | .ok answer =>
        ((s.claim id row (start + turn.claimedAfter)).settle id
            (row.claim (start + turn.claimedAfter)) Attempt.begin
            (start + turn.claimedAfter + turn.finishedAfter) answer,
          .ok (.status ((row.claim (start + turn.claimedAfter)).toDelivery.outcome answer))) := by
  have hclaim := h.claimable
  simp only [Delivery.isClaimable, Bool.and_eq_true, Bool.not_eq_true'] at hclaim
  obtain ⟨⟨hterminal, hlease⟩, hnext⟩ := hclaim
  have hfresh : (s.attempts.get
      (id, (row.claim (start + turn.claimedAfter)).attemptCount)).isSome = false := by
    by_contra hsome
    have hle := hs.attempts id row _ h.stored (Bool.eq_true_of_not_eq_false hsome)
    have hcount : (row.claim (start + turn.claimedAfter)).attemptCount = row.attemptCount + 1 := rfl
    omega
  have hbegin : (s.claim id row (start + turn.claimedAfter)).attempts.get
      (id, (row.claim (start + turn.claimedAfter)).attemptCount) = some Attempt.begin :=
    Table.get_set_self _ _ _
  unfold processAlertDelivery
  simp only [h.stored, h.free, hterminal, hlease, hnext, h.found, hfresh, Bool.false_eq_true,
    if_false]
  cases dispatch services (row.claim (start + turn.claimedAfter)) n turn with
  | error e => rfl
  | ok answer =>
    dsimp only
    rw [Store.finish, hbegin]

/-- Work on a delivery keeps the constraints. -/
theorem consistent_settle (hs : s.Consistent) (hrow : s.deliveries.get id = some row)
    (now later : Time) (answer : Answer) :
    ((s.claim id row now).settle id (row.claim now) Attempt.begin later answer).Consistent := by
  have hother := elsewhere_settle s id row (row.claim now) Attempt.begin now later answer
  have hself : ((s.claim id row now).settle id (row.claim now) Attempt.begin later
      answer).deliveries.get id = some ((row.claim now).finish later answer) :=
    Table.get_set_self _ _ _
  constructor
  · intro other r hr
    rw [hother.notifications]
    by_cases heq : other = id
    · subst heq
      cases hself.symm.trans hr
      exact hs.notification other row hrow
    · rw [(hother.others other heq).delivery] at hr
      exact hs.notification other r hr
  · intro other r k hr hk
    by_cases heq : other = id
    · subst heq
      cases hself.symm.trans hr
      rw [attemptCount_finish, show (row.claim now).attemptCount = row.attemptCount + 1 from rfl]
      by_contra hlt
      -- a later sequence is not the one written
      have hne : (other, k) ≠ (other, row.attemptCount + 1) := by
        intro h
        have := (Prod.mk.inj h).2
        omega
      have hold : ((s.claim other row now).settle other (row.claim now) Attempt.begin later
          answer).attempts.get (other, k) = s.attempts.get (other, k) :=
        (Table.get_set_ne _ hne _).trans (Table.get_set_ne _ hne _)
      rw [hold] at hk
      have hle := hs.attempts other row k hrow hk
      omega
    · rw [(hother.others other heq).delivery] at hr
      rw [(hother.others other heq).attempts k] at hk
      exact hs.attempts other r k hr hk

/-- A dispatch that returns settles the attempt, and nothing else has changed. -/
theorem process_returns (hs : s.Consistent) (h : Open s start id turn row n) {answer : Answer}
    (hdispatch : dispatch services (row.claim (start + turn.claimedAfter)) n turn = .ok answer) :
    ∃ s' verdict, processAlertDelivery services start s id turn = (s', .ok verdict) ∧
      Processed s s' id ∧ Elsewhere s s' id ∧ s'.Consistent := by
  rw [process_open hs h, hdispatch]
  refine ⟨_, _, rfl, ?_, elsewhere_settle s id row _ _ _ _ answer,
    consistent_settle hs h.stored _ _ answer⟩
  refine ⟨row, _, Attempt.begin.finish (row.claim (start + turn.claimedAfter)).toDelivery
      (start + turn.claimedAfter + turn.finishedAfter) answer, h.stored,
    Table.get_set_self _ _ _, attemptCount_finish _ _ answer, ?_, ?_⟩
  · rw [attemptCount_finish]
    exact Table.get_set_self _ _ _
  · rw [status_finish]
    exact ⟨outcome_isFinal _ answer, rfl⟩

end Process

/-- No exception comes out, and the delivery and its new attempt are over. -/
def SettlesOne (services : Services) (start : Time) (s : Store) (id : DeliveryId) (turn : Turn) :
    Prop :=
  (∃ verdict, (processAlertDelivery services start s id turn).2 = .ok verdict) ∧
    Processed s (processAlertDelivery services start s id turn).1 id

/-- **When one delivery is settled.** No exception comes out of a delivery that can be worked on,
and it and its new attempt are over, exactly when it is sendable. -/
theorem process_iff {services : Services} {start : Time} {s : Store} {id : DeliveryId}
    {turn : Turn} {row : AlertRow} {n : Notification} (hs : s.Consistent)
    (h : Open s start id turn row n) :
    SettlesOne services start s id turn ↔ Sendable services row n turn := by
  have hsend : Sendable services (row.claim (start + turn.claimedAfter)) n turn ↔
      Sendable services row n turn := Iff.rfl
  rw [SettlesOne, ← hsend, ← dispatch_ok_iff]
  constructor
  · rintro ⟨⟨verdict, hok⟩, -⟩
    cases hdispatch : dispatch services (row.claim (start + turn.claimedAfter)) n turn with
    | ok answer => exact ⟨answer, rfl⟩
    | error e =>
      rw [process_open hs h, hdispatch] at hok
      cases hok
  · rintro ⟨answer, hdispatch⟩
    obtain ⟨s', verdict, hprocess, hdone, -⟩ := process_returns hs h hdispatch
    rw [hprocess]
    exact ⟨⟨verdict, rfl⟩, hdone⟩

/-! ## The sweep -/

/-- No other session holds the delivery, and no lease on it is running. -/
def Unlocked (s : Store) (start : Time) (id : DeliveryId) (turn : Turn) : Prop :=
  turn.locked = false ∧ ∀ row, s.deliveries.get id = some row →
    row.leaseExpiresAt.any (start + turn.claimedAfter < ·) = false

/-- The stored delivery is sendable. -/
def SendableAt (services : Services) (s : Store) (id : DeliveryId) (turn : Turn) : Prop :=
  ∀ row n, s.deliveries.get id = some row → s.notifications row.notificationId = some n →
    Sendable services row n turn

/-- The stored delivery is due. -/
def DueAt (s : Store) (start : Time) (id : DeliveryId) : Prop :=
  ∃ row, s.deliveries.get id = some row ∧ isDue row start = true

section SameAt

variable {services : Services} {start : Time} {s s' u : Store} {id : DeliveryId} {turn : Turn}

theorem SameAt.unlocked (h : SameAt s s' id) :
    Unlocked s' start id turn ↔ Unlocked s start id turn := by
  rw [Unlocked, Unlocked, h.delivery]

theorem SameAt.sendableAt (h : SameAt s s' id) (hn : s'.notifications = s.notifications) :
    SendableAt services s' id turn ↔ SendableAt services s id turn := by
  rw [SendableAt, SendableAt, h.delivery, hn]

theorem SameAt.dueAt (h : SameAt s s' id) : DueAt s' start id ↔ DueAt s start id := by
  rw [DueAt, DueAt, h.delivery]

theorem SameAt.processed_left (h : SameAt s s' id) : Processed s' u id ↔ Processed s u id := by
  rw [Processed, Processed, h.delivery]

theorem SameAt.processed_right (h : SameAt s s' id) : Processed u s' id ↔ Processed u s id := by
  simp only [Processed, h.delivery, h.attempts]

theorem SameAt.trans (hs : SameAt s s' id) (hu : SameAt s' u id) : SameAt s u id :=
  ⟨hu.delivery.trans hs.delivery, fun k => (hu.attempts k).trans (hs.attempts k)⟩

end SameAt

section Sweep

variable {services : Services} {start : Time} {turns : DeliveryId → Turn}

/-- A due delivery that is not locked can be worked on. -/
theorem open_of_due {s : Store} (hs : s.Consistent) {id : DeliveryId} (hdue : DueAt s start id)
    (hfree : Unlocked s start id (turns id)) :
    ∃ row n, Open s start id (turns id) row n := by
  obtain ⟨row, hrow, hwhen⟩ := hdue
  obtain ⟨n, hn⟩ := hs.notification id row hrow
  simp only [isDue, Bool.and_eq_true, Bool.or_eq_true, decide_eq_true_eq] at hwhen
  obtain ⟨hstatus, hnext⟩ := hwhen
  refine ⟨row, n, hrow, hn, hfree.1, ?_⟩
  have hterminal : row.status.isTerminal = false := by
    rcases hstatus with h | h <;> rw [h] <;> rfl
  have hlater : row.nextAttemptAt.any (start + (turns id).claimedAfter < ·) = false := by
    cases hn : row.nextAttemptAt with
    | none => rfl
    | some next =>
      rw [hn, Option.any_some, decide_eq_true_eq] at hnext
      rw [Option.any_some, decide_eq_false_iff_not]
      exact Nat.not_lt.mpr (hnext.trans (Nat.le_add_right _ _))
  simp only [Delivery.isClaimable, hterminal, hfree.2 row hrow, hlater, Bool.not_false,
    Bool.and_self]

/-- A locked delivery is left alone. -/
theorem process_locked {s : Store} {id : DeliveryId} (hdue : DueAt s start id)
    (hlocked : ¬ Unlocked s start id (turns id)) :
    ∃ verdict, processAlertDelivery services start s id (turns id) = (s, .ok verdict) := by
  obtain ⟨row, hrow, hwhen⟩ := hdue
  simp only [isDue, Bool.and_eq_true, Bool.or_eq_true, decide_eq_true_eq] at hwhen
  have hterminal : row.status.isTerminal = false := by
    rcases hwhen.1 with h | h <;> rw [h] <;> rfl
  unfold processAlertDelivery
  rw [hrow]
  by_cases hheld : (turns id).locked = true
  · exact ⟨.skipped, if_pos hheld⟩
  rw [Bool.not_eq_true] at hheld
  have hlease : row.leaseExpiresAt.any (start + (turns id).claimedAfter < ·) = true := by
    by_contra h
    refine hlocked ⟨hheld, fun r hr => ?_⟩
    cases hrow.symm.trans hr
    exact Bool.eq_false_of_not_eq_true h
  simp only [hheld, hterminal, hlease, Bool.false_eq_true, if_false, if_true]
  exact ⟨.locked, rfl⟩

theorem elsewhere_setDelivery (s : Store) (id : DeliveryId) (row : AlertRow) :
    Elsewhere s (s.setDelivery id row) id :=
  ⟨rfl, fun _ hother => ⟨s.deliveries.get_set_ne hother row, fun _ => rfl⟩⟩

/-- Whatever happens to a delivery, the others stay as they are. -/
theorem process_elsewhere (s : Store) (id : DeliveryId) (turn : Turn) :
    Elsewhere s (processAlertDelivery services start s id turn).1 id := by
  have hclaim : ∀ row now, Elsewhere s (s.claim id row now) id :=
    fun row now => elsewhere_set s id (row.claim now) _ Attempt.begin
  unfold processAlertDelivery
  split
  · exact .refl s id
  · next row hrow =>
    dsimp only
    split_ifs
    · exact .refl s id
    · exact .refl s id
    · exact .refl s id
    · exact .refl s id
    · split
      · exact elsewhere_setDelivery s id _
      · exact .refl s id
    · split
      · exact elsewhere_setDelivery s id _
      · next n hn =>
        split
        · exact hclaim row _
        unfold Store.finish
        split
        · exact hclaim row _
        · next a ha => exact elsewhere_settle s id row _ a _ _ _

/-- The sweep changes the rows of the deliveries it works on only. -/
theorem processAll_sameAt (ids : List DeliveryId) (s : Store) (completed : Nat)
    (other : DeliveryId) (hother : other ∉ ids) :
    SameAt s (processAll services start turns s ids completed).1 other := by
  induction ids generalizing s completed with
  | nil => exact ⟨rfl, fun _ => rfl⟩
  | cons id ids ih =>
    obtain ⟨hne, hrest⟩ := not_or.mp (fun h => hother (List.mem_cons.mpr h))
    have hfirst := (@process_elsewhere services start s id
      (turns id)).others other hne
    unfold processAll
    split
    · next s' e hprocess =>
      rw [hprocess] at hfirst
      exact hfirst
    · next s' verdict hprocess =>
      rw [hprocess] at hfirst
      exact hfirst.trans (ih s' _ hrest)

/-- The sweep goes on behind a delivery that is locked or settled. -/
theorem processAll_cons {s s' : Store} {id : DeliveryId} {verdict : Verdict}
    (h : processAlertDelivery services start s id (turns id) = (s', .ok verdict))
    (ids : List DeliveryId) (completed : Nat) :
    ∃ completed', processAll services start turns s (id :: ids) completed =
      processAll services start turns s' ids completed' := by
  rw [processAll, h]
  exact ⟨_, rfl⟩

/-- **The sweep works on all deliveries exactly when all are sendable.** -/
theorem processAll_iff {ids : List DeliveryId} {s : Store} (hs : s.Consistent)
    (hdue : ∀ id ∈ ids, DueAt s start id) (hnodup : ids.Nodup) (completed : Nat) :
    ((∃ count, (processAll services start turns s ids completed).2 = .ok count) ∧
        ∀ id ∈ ids, Unlocked s start id (turns id) →
          Processed s (processAll services start turns s ids completed).1 id) ↔
      ∀ id ∈ ids, Unlocked s start id (turns id) → SendableAt services s id (turns id) := by
  induction ids generalizing s completed with
  | nil =>
    exact iff_of_true ⟨⟨completed, rfl⟩, fun id hid => nomatch hid⟩ (fun id hid => nomatch hid)
  | cons id ids ih =>
    obtain ⟨hnew, hnodup'⟩ := List.nodup_cons.mp hnodup
    have hfirst := hdue id (List.mem_cons_self ..)
    simp only [List.forall_mem_cons]
    by_cases hfree : Unlocked s start id (turns id)
    · obtain ⟨row, n, hopen⟩ := open_of_due hs hfirst hfree
      have hsendable : SendableAt services s id (turns id) ↔
          Sendable services row n (turns id) := by
        constructor
        · exact fun h => h row n hopen.stored hopen.found
        · intro h row' n' hrow' hn'
          cases hopen.stored.symm.trans hrow'
          cases hopen.found.symm.trans hn'
          exact h
      by_cases hsend : Sendable services row n (turns id)
      · -- the delivery is settled, and the others are as they were
        obtain ⟨answer, hdispatch⟩ := dispatch_ok_iff.mpr
          (show Sendable services (row.claim (start + (turns id).claimedAfter)) n (turns id)
            from hsend)
        obtain ⟨s', verdict, hprocess, hdone, helse, hs'⟩ := process_returns hs hopen hdispatch
        obtain ⟨completed', hloop⟩ := processAll_cons hprocess ids completed
        have hsame : ∀ j ∈ ids, SameAt s s' j := fun j hj =>
          helse.others j (fun h => hnew (h ▸ hj))
        have hrest := ih hs' (fun j hj => (hsame j hj).dueAt.mpr
          (hdue j (List.mem_cons_of_mem _ hj))) hnodup' completed'
        have hkept := @processAll_sameAt services start turns ids s' completed' id hnew
        rw [hloop, hkept.processed_right]
        constructor
        · rintro ⟨hok, -, hothers⟩
          refine ⟨fun _ => hsendable.mpr hsend, fun j hj hfreej => ?_⟩
          rw [← (hsame j hj).sendableAt helse.notifications]
          refine hrest.mp ⟨hok, fun k hk hfreek => ?_⟩ j hj ((hsame j hj).unlocked.mpr hfreej)
          rw [(hsame k hk).processed_left]
          exact hothers k hk ((hsame k hk).unlocked.mp hfreek)
        · rintro ⟨-, hothers⟩
          obtain ⟨hok, hall⟩ := hrest.mpr (fun j hj hfreej => by
            rw [(hsame j hj).sendableAt helse.notifications]
            exact hothers j hj ((hsame j hj).unlocked.mp hfreej))
          refine ⟨hok, fun _ => hdone, fun j hj hfreej => ?_⟩
          rw [← (hsame j hj).processed_left]
          exact hall j hj ((hsame j hj).unlocked.mpr hfreej)
      · -- the exception ends the sweep
        refine iff_of_false ?_ (fun h => hsend (hsendable.mp (h.1 hfree)))
        rintro ⟨⟨count, hok⟩, -⟩
        have hraises : ∃ s' e, processAlertDelivery services start s id (turns id) =
            (s', .error e) := by
          cases hdispatch : dispatch services
              (row.claim (start + (turns id).claimedAfter)) n (turns id) with
          | ok answer => exact absurd (dispatch_ok_iff.mp ⟨answer, hdispatch⟩) hsend
          | error e =>
            rw [process_open hs hopen, hdispatch]
            exact ⟨_, e, rfl⟩
        obtain ⟨s', e, hprocess⟩ := hraises
        rw [processAll, hprocess] at hok
        cases hok
    · obtain ⟨verdict, hprocess⟩ := process_locked hfirst hfree
      obtain ⟨completed', hloop⟩ := processAll_cons hprocess ids completed
      rw [hloop]
      have hrest := ih hs (fun j hj => hdue j (List.mem_cons_of_mem _ hj)) hnodup' completed'
      constructor
      · rintro ⟨hok, -, hothers⟩
        exact ⟨fun h => absurd h hfree, hrest.mp ⟨hok, hothers⟩⟩
      · rintro ⟨-, hothers⟩
        obtain ⟨hok, hall⟩ := hrest.mpr hothers
        exact ⟨hok, fun h => absurd h hfree, hall⟩

end Sweep

/-! ## The selection -/

theorem consistent_recover {s : Store} (hs : s.Consistent) (now : Time)
    (held : DeliveryId → Bool) : (recoverExpiredAlertLeases s now held).Consistent := by
  have hrow : ∀ id row, (recoverExpiredAlertLeases s now held).deliveries.get id = some row →
      ∃ old, s.deliveries.get id = some old ∧ row.notificationId = old.notificationId ∧
        row.attemptCount = old.attemptCount := by
    intro id row h
    obtain ⟨old, hold, hnew⟩ := Option.map_eq_some_iff.mp h
    refine ⟨old, hold, ?_⟩
    dsimp only at hnew
    split at hnew <;> subst hnew <;> exact ⟨rfl, rfl⟩
  constructor
  · intro id row h
    obtain ⟨old, hold, hid, -⟩ := hrow id row h
    rw [hid]
    exact hs.notification id old hold
  · intro id row k h hk
    obtain ⟨old, hold, -, hcount⟩ := hrow id row h
    rw [hcount]
    exact hs.attempts id old k hold hk

theorem dueAt_of_mem_select {s : Store} {now : Time} {order : Ordering} {limit : Nat}
    {id : DeliveryId} (h : id ∈ selectDue s now order limit) : DueAt s now id := by
  have hmem := (order.perm _).mem_iff.mp (List.mem_of_mem_take h)
  obtain ⟨-, hany⟩ := List.mem_filter.mp hmem
  cases hget : s.deliveries.get id with
  | none =>
    rw [hget] at hany
    cases hany
  | some row =>
    rw [hget] at hany
    exact ⟨row, hget, hany⟩

theorem nodup_select (s : Store) (now : Time) (order : Ordering) (limit : Nat) :
    (selectDue s now order limit).Nodup :=
  ((order.perm _).nodup_iff.mpr (s.deliveries.nodup.filter _)).sublist (List.take_sublist _ _)

/-- The store when the sweep selects. -/
def Sweep.recovered (sweep : Sweep) (s : Store) : Store :=
  recoverExpiredAlertLeases s sweep.start sweep.held

/-- The sweep returns, and every delivery it selected and found unlocked has a new attempt that is
over. -/
def SettlesAll (services : Services) (sweep : Sweep) (s : Store) : Prop :=
  (∃ count, (processDueAlertDeliveries services sweep s).2 = .ok count) ∧
    ∀ id ∈ sweep.selected s, Unlocked (sweep.recovered s) sweep.start id (sweep.turns id) →
      Processed (sweep.recovered s) (processDueAlertDeliveries services sweep s).1 id

/-- Every delivery that the sweep selects and finds unlocked is sendable. -/
def AllSendable (services : Services) (sweep : Sweep) (s : Store) : Prop :=
  ∀ id ∈ sweep.selected s, Unlocked (sweep.recovered s) sweep.start id (sweep.turns id) →
    SendableAt services (sweep.recovered s) id (sweep.turns id)

/-- **When alerts are isolated from each other.** A delivery that can be worked on is settled
without an exception exactly when it is sendable, and a sweep settles every delivery it selects
and finds unlocked exactly when all of these are. -/
theorem alerts_isolated_iff (services : Services) (s : Store) (hs : s.Consistent) :
    (∀ start id turn row n, Open s start id turn row n →
      (SettlesOne services start s id turn ↔ Sendable services row n turn)) ∧
    ∀ sweep, SettlesAll services sweep s ↔ AllSendable services sweep s :=
  ⟨fun _ _ _ _ _ h => process_iff hs h, fun sweep =>
    processAll_iff (consistent_recover hs sweep.start sweep.held)
      (fun _ hid => dueAt_of_mem_select hid) (nodup_select _ _ _ _) 0⟩

/-! ## Credentials that no longer decrypt -/

def mailTransport : OperatorAlertTransport where
  transport := "smtp_bz_smtp"
  revision := 1
  senderEmail := some "panel@osco-servis.ru"
  smtpPort := some 587
  smtpTlsMode := some "starttls"
  smtpUsernameEnc := some "old"
  smtpPasswordEnc := some "old"
  apiAuthorizationEnc := none

/-- The key has changed since the credentials were stored. -/
def rotatedKey : Services where
  telegramConfigured := false
  decrypt := fun text => if text = "old" then none else some text
  upper := id
  transport := fun _ => some mailTransport
  recipient := fun _ => some "ops@site.ru"

def systemAlert : Notification where
  id := ⟨0, Uuid.zero_lt⟩
  tenantId := 1
  userId := none
  priority := "normal"
  title := "DISK"
  body := ""
  groupKey := none
  category := "system"
  signalCode := some "disk"
  subjectKind := some "system"
  subjectKey := some ""
  read := false
  createdAt := none

def oneAlert : Store where
  deliveries := Table.empty.set 0 (queuedRow systemAlert 0 "smtp_bz_smtp" (some 1))
  attempts := Table.empty
  notifications := fun _ => some systemAlert

def plainSweep : Sweep where
  start := 0
  held := fun _ => false
  order := ⟨id, fun _ => .refl _⟩
  limit := 100
  turns := fun _ => ⟨false, 0, 0, ⟨none, none, none⟩, .httpError⟩

theorem consistent_oneAlert : oneAlert.Consistent :=
  ⟨fun _ _ _ => ⟨systemAlert, rfl⟩, fun _ _ _ _ h => nomatch h⟩

theorem alerts_isolated_iff_oneAlert :
    oneAlert.Consistent ∧
      (∀ start id turn row n, Open oneAlert start id turn row n →
        (SettlesOne rotatedKey start oneAlert id turn ↔ Sendable rotatedKey row n turn)) ∧
      ∀ sweep, SettlesAll rotatedKey sweep oneAlert ↔ AllSendable rotatedKey sweep oneAlert :=
  ⟨consistent_oneAlert, alerts_isolated_iff rotatedKey oneAlert consistent_oneAlert⟩

/-- The transport is ready, and the sweep raises. -/
theorem rotated_key_stops_sweep :
    mailTransport.isReady = true ∧
      (processDueAlertDeliveries rotatedKey plainSweep oneAlert).2 = .error .valueError ∧
      ¬ SettlesAll rotatedKey plainSweep oneAlert := by
  have hraised : (processDueAlertDeliveries rotatedKey plainSweep oneAlert).2 =
      .error .valueError := by rfl
  refine ⟨by decide, hraised, ?_⟩
  rintro ⟨⟨count, hok⟩, -⟩
  rw [hraised] at hok
  cases hok

end MegaPanel.AlertDelivery

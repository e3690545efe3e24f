import MegaPanel.AlertDelivery.Notifications

set_option autoImplicit false

/-! # Incidents

An incident records that a signal is on for a subject. `observe_alert` opens it, counts further
observations and resolves it when the signal goes off; an operator acknowledges, snoozes or
resolves it through `transition_incident`. A partial unique index keeps the incidents of one
signal and subject that are open or acknowledged to one at most (`OneActive`); the look-ups of
the code rely on it, since `scalar_one_or_none` raises when it finds two rows.

PostgreSQL takes the first observation and the count in one `INSERT ... ON CONFLICT`; the other
branch of the source, modelled here, looks the row up and writes the same.
-/

namespace MegaPanel.Incidents

open MegaPanel.Lib AlertDelivery

abbrev IncidentId := Uuid

/-! ## Signals -/

/-- The keys of `SIGNALS`. -/
inductive Signal
  | qaBlock
  | deliveryDeadLetter
  | releaseFailure
  | systemOperationFailed
  | workerHeartbeatStale
  | securityLogin
  | securityNewLocation
  | securitySessionReuse
  | securitySensitiveChange
  | siteDnsFailure
  | siteTlsFailure
  | siteTlsExpiring
  | siteUnreachable
  | siteHttpError
  | siteIntegrityFailure
  deriving DecidableEq

inductive Severity
  | info
  | warning
  | critical
  deriving DecidableEq

namespace Signal

def code : Signal → String
  | qaBlock => "qa-block"
  | deliveryDeadLetter => "delivery-dead-letter"
  | releaseFailure => "release-failure"
  | systemOperationFailed => "system-operation-failed"
  | workerHeartbeatStale => "worker-heartbeat-stale"
  | securityLogin => "security-login"
  | securityNewLocation => "security-new-location"
  | securitySessionReuse => "security-session-reuse"
  | securitySensitiveChange => "security-sensitive-change"
  | siteDnsFailure => "site-dns-failure"
  | siteTlsFailure => "site-tls-failure"
  | siteTlsExpiring => "site-tls-expiring"
  | siteUnreachable => "site-unreachable"
  | siteHttpError => "site-http-error"
  | siteIntegrityFailure => "site-integrity-failure"

/-- `SIGNALS` -/
def severity : Signal → Severity
  | qaBlock => .warning
  | deliveryDeadLetter => .critical
  | releaseFailure => .critical
  | systemOperationFailed => .warning
  | workerHeartbeatStale => .warning
  | securityLogin => .info
  | securityNewLocation => .warning
  | securitySessionReuse => .critical
  | securitySensitiveChange => .warning
  | siteDnsFailure => .critical
  | siteTlsFailure => .critical
  | siteTlsExpiring => .warning
  | siteUnreachable => .critical
  | siteHttpError => .critical
  | siteIntegrityFailure => .critical

end Signal

/-! ## Rows -/

/-- What an incident is about: the columns of the unique index. -/
structure Subject where
  tenantId : TenantId
  signal : Signal
  kind : String
  key : String
  deriving DecidableEq

inductive Status
  | opened
  | acknowledged
  | resolved
  deriving DecidableEq

/-- `AlertIncident` -/
structure AlertIncident where
  subject : Subject
  severity : Severity
  status : Status
  occurrenceCount : Nat
  openedAt : Time
  acknowledgedAt : Option Time
  snoozedUntil : Option Time
  resolvedAt : Option Time
  deriving DecidableEq

/-- `status IN ('open', 'acknowledged')` -/
def AlertIncident.isActive (i : AlertIncident) : Bool := decide (i.status ≠ .resolved)

/-- `AlertIncident` of the database. -/
abbrev Incidents := Table IncidentId AlertIncident

/-- The incidents of the unique index's predicate, for one subject. -/
def active (incidents : Incidents) (subject : Subject) : List (IncidentId × AlertIncident) :=
  incidents.rows.filter (fun r => decide (r.2.subject = subject) && r.2.isActive)

/-- Whether a subject has an incident that is not resolved. -/
def isOpen (incidents : Incidents) (subject : Subject) : Bool :=
  !(active incidents subject).isEmpty

/-- The partial unique index `uq_alert_incidents_active_subject`. -/
def OneActive (incidents : Incidents) : Prop :=
  ∀ id j a b, incidents.get id = some a → incidents.get j = some b → a.isActive = true →
    b.isActive = true → a.subject = b.subject → id = j

/-- `scalar_one_or_none`; `none` is `MultipleResultsFound`. -/
def scalarOneOrNone {ρ : Type} : List ρ → Option (Option ρ)
  | [] => some none
  | [row] => some (some row)
  | _ => none

/-! ## Observations -/

/-- `re.fullmatch(r"[a-z][a-z0-9_-]{0,31}", subject_kind)` -/
def isSubjectKind (kind : String) : Bool :=
  match kind.toList with
  | [] => false
  | c :: cs =>
    decide ('a' ≤ c ∧ c ≤ 'z') && decide (cs.length ≤ 31) &&
      cs.all (fun d => decide ('a' ≤ d ∧ d ≤ 'z') || decide ('0' ≤ d ∧ d ≤ '9') ||
        decide (d = '_') || decide (d = '-'))

/-- The incident of a first observation. -/
def AlertIncident.first (subject : Subject) (now : Time) : AlertIncident where
  subject := subject
  severity := subject.signal.severity
  status := .opened
  occurrenceCount := 1
  openedAt := now
  acknowledgedAt := none
  snoozedUntil := none
  resolvedAt := none

/-- The incident of a signal that is off. -/
def AlertIncident.ended (i : AlertIncident) (now : Time) : AlertIncident :=
  { i with status := .resolved, resolvedAt := some now, snoozedUntil := none }

/-- `observe_alert`; `none` is an exception, and nothing is written. `id` is the identifier of
a new row. -/
def observeAlert (incidents : Incidents) (now : Time) (id : IncidentId) (subject : Subject)
    (on : Bool) : Option Incidents :=
  if !isSubjectKind subject.kind then none
  else if 64 < subject.key.length then none
  else
    match scalarOneOrNone (active incidents subject), on with
    | none, _ => none
    | some none, true =>
      if (incidents.get id).isSome then none
      else some (incidents.set id (.first subject now))
    | some (some (j, i)), true =>
      some (incidents.set j { i with occurrenceCount := i.occurrenceCount + 1 })
    | some none, false => some incidents
    | some (some (j, i)), false => some (incidents.set j (i.ended now))

/-! ## Transitions -/

/-- `IncidentActionIn` -/
inductive IncidentAction
  | acknowledge
  | resolve
  | snooze (minutes : Nat)
  deriving DecidableEq

/-- `SNOOZE_MINUTES` -/
def snoozeMinutes : List Nat := [60, 240, 1440]

/-- `transition_incident`; an error is the text of its `ValueError`. -/
def transitionIncident (i : AlertIncident) (now : Time) :
    IncidentAction → Except String AlertIncident
  | .acknowledge =>
    let i' :=
      if i.status = .opened then
        { i with status := .acknowledged, acknowledgedAt := some now }
      else i
    .ok { i' with snoozedUntil := none }
  | .snooze minutes =>
    if i.status = .resolved then .error "Resolved incidents cannot be snoozed"
    else if minutes ∉ snoozeMinutes then .error "Unsupported incident snooze duration"
    else .ok { i with snoozedUntil := some (now + seconds (minutes * 60)) }
  | .resolve =>
    let i' :=
      if i.status ≠ .resolved then { i with status := .resolved, resolvedAt := some now } else i
    .ok { i' with snoozedUntil := none }

/-! ## Incidents that are not resolved -/

theorem mem_active {incidents : Incidents} {subject : Subject} {id : IncidentId}
    {i : AlertIncident} :
    (id, i) ∈ active incidents subject ↔
      incidents.get id = some i ∧ i.subject = subject ∧ i.isActive = true := by
  simp [active, Table.mem_rows]

theorem isOpen_iff {incidents : Incidents} {subject : Subject} :
    isOpen incidents subject = true ↔
      ∃ id i, incidents.get id = some i ∧ i.subject = subject ∧ i.isActive = true := by
  have hne : isOpen incidents subject = true ↔ active incidents subject ≠ [] := by
    simp [isOpen, List.isEmpty_iff]
  rw [hne]
  constructor
  · intro h
    obtain ⟨⟨id, i⟩, hmem⟩ := List.exists_mem_of_ne_nil _ h
    exact ⟨id, i, mem_active.mp hmem⟩
  · rintro ⟨id, i, hi⟩
    exact List.ne_nil_of_mem (mem_active.mpr hi)

/-- The look-ups of the code find the one incident there is. -/
theorem scalarOneOrNone_active {incidents : Incidents} (h : OneActive incidents)
    (subject : Subject) :
    (isOpen incidents subject = false ∧
        scalarOneOrNone (active incidents subject) = some none) ∨
      ∃ id i, incidents.get id = some i ∧ i.subject = subject ∧ i.isActive = true ∧
        scalarOneOrNone (active incidents subject) = some (some (id, i)) := by
  cases hact : active incidents subject with
  | nil => exact .inl ⟨by rw [isOpen, hact]; rfl, rfl⟩
  | cons r rest =>
    right
    have hr := @mem_active incidents subject r.1 r.2
    rw [hact] at hr
    have hmem := hr.mp (List.mem_cons_self ..)
    have hrest : rest = [] := by
      cases rest with
      | nil => rfl
      | cons r' rest =>
        -- a second row would have the key of the first
        have hr' := (@mem_active incidents subject r'.1 r'.2).mp
          (by rw [hact]; exact List.mem_cons_of_mem _ (List.mem_cons_self ..))
        have hkeys : (active incidents subject).map (·.1) |>.Nodup :=
          (incidents.rows_keys ▸ incidents.nodup : (incidents.rows.map (·.1)).Nodup).sublist
            (List.filter_sublist.map _)
        have heq := h r.1 r'.1 r.2 r'.2 hmem.1 hr'.1 hmem.2.2 hr'.2.2
          (hmem.2.1.trans hr'.2.1.symm)
        rw [hact, List.map_cons, List.nodup_cons] at hkeys
        exact absurd (heq ▸ List.mem_map_of_mem (List.mem_cons_self ..)) hkeys.1
    exact ⟨r.1, r.2, hmem.1, hmem.2.1, hmem.2.2, by rw [hrest]; rfl⟩

end MegaPanel.Incidents

import MegaPanel.AlertDelivery.Notifications
import MegaPanel.Lib.Dict

set_option autoImplicit false

/-! # The list of alerts

`_notification_projection` lists notifications for the panel. It reads the deliveries of all of
them in one query, reads the domains and the sites that subjects name in one query each, and
writes one item per notification.

The queries for domains and sites are written `await db.execute(…).scalars()`: the attribute is
looked up on the coroutine that `execute` returns, which has none. How such an expression
evaluates is a parameter of the definition: `unawaited` is what the source says, `awaited` is
`(await db.execute(…)).scalars()`, the form of the query for the deliveries. A dictionary of an
item is the list of its assignments, read by `dictGet`.
-/

namespace MegaPanel.AlertDelivery

open MegaPanel.Lib

/-! ## What is stored -/

/-- `Domain` -/
structure Domain where
  id : Uuid
  hostname : String
  deriving DecidableEq

/-- `Site` -/
structure Site where
  id : Uuid
  domain : String
  deriving DecidableEq

/-- The tables the projection reads, with their keys. -/
structure Tables where
  deliveries : List AlertRow
  domains : List Domain
  sites : List Site
  /-- The key that `create_operator_alert` gives a delivery -/
  keyed : ∀ row ∈ deliveries, row.idempotencyKey = row.notificationId.str ++ ":" ++ row.channel
  keys_nodup : (deliveries.map (·.idempotencyKey)).Nodup
  domains_nodup : (domains.map (·.id)).Nodup
  sites_nodup : (sites.map (·.id)).Nodup

/-- The deliveries that name the notification. -/
def Tables.deliveriesOf (db : Tables) (id : NotificationId) : List AlertRow :=
  db.deliveries.filter (fun row => row.notificationId = id)

/-! ## The projection -/

structure Item where
  id : String
  category : String
  signalCode : Option String
  subjectKind : Option String
  subjectKey : Option String
  subjectLabel : Option String
  priority : String
  title : String
  body : String
  read : Bool
  createdAt : Option String
  deliveries : List (String × Status)
  deliveryErrors : List (String × String)

/-- `_serialize_notification` -/
def serializeNotification (n : Notification) (deliveries : List AlertRow)
    (subjectLabel : Option String) : Item where
  id := n.id.str
  category := n.category
  signalCode := n.signalCode
  subjectKind := n.subjectKind
  subjectKey := n.subjectKey
  subjectLabel := subjectLabel
  priority := n.priority
  title := n.title
  body := n.body
  read := n.read
  createdAt := n.createdAt.map DateTime.isoformat
  deliveries := deliveries.map (fun row => (row.channel, row.status))
  deliveryErrors := deliveries.filterMap (fun row =>
    if truthy row.errorCode then row.errorCode.map (fun code => (row.channel, code)) else none)

inductive Raised
  | attributeError
  deriving DecidableEq

/-- How the expression around a query evaluates, given the rows of the query. -/
abbrev Scalars := ∀ {ρ : Type}, List ρ → Except Raised (List ρ)

/-- `await db.execute(query).scalars()` -/
def unawaited : Scalars := fun _ => .error .attributeError

/-- The ids in `subject_ids[kind]`. -/
def subjectIds (kind : String) (notifications : List Notification) : List Uuid :=
  notifications.filterMap (fun n =>
    if n.subjectKind = some kind ∧ truthy n.subjectKey = true then
      Uuid.ofText (n.subjectKey.getD "")
    else none)

/-- A dictionary of labels by kind and key. -/
abbrev Labels := List ((String × String) × String)

/-- The labels of one kind: the rows with the ids are read if there are any ids. -/
def labelsOf {ρ : Type} (scalars : Scalars) (kind : String) (id : ρ → Uuid) (name : ρ → String)
    (rows : List ρ) (ids : List Uuid) : Except Raised Labels :=
  if ids = [] then .ok []
  else do
    let found ← scalars (rows.filter (fun r => id r ∈ ids))
    .ok (found.map (fun r => ((kind, (id r).str), name r)))

/-- The labels of the subjects. -/
def subjectLabels (scalars : Scalars) (db : Tables) (notifications : List Notification) :
    Except Raised Labels := do
  let ofDomains ← labelsOf scalars "domain" Domain.id Domain.hostname db.domains
    (subjectIds "domain" notifications)
  let ofSites ← labelsOf scalars "site" Site.id Site.domain db.sites
    (subjectIds "site" notifications)
  .ok (ofDomains ++ ofSites)

/-- `_notification_projection` -/
def notificationProjection (scalars : Scalars) (db : Tables) (notifications : List Notification) :
    Except Raised (List Item) :=
  if notifications = [] then .ok []
  else do
    let rows := db.deliveries.filter (fun row =>
      row.notificationId ∈ notifications.map (·.id))
    let labels ← subjectLabels scalars db notifications
    .ok (notifications.map (fun n =>
      serializeNotification n (rows.filter (fun row => row.notificationId = n.id))
        (dictGet labels (orElse n.subjectKind "", orElse n.subjectKey ""))))

/-! ## What an item should say -/

/-- The item lists the deliveries of the notification, their errors, and the name of the
subject where the key is the id of its row. -/
structure Listed (db : Tables) (n : Notification) (item : Item) : Prop where
  id : item.id = n.id.str
  deliveries : ∀ channel status, dictGet item.deliveries channel = some status ↔
    ∃ row ∈ db.deliveriesOf n.id, row.channel = channel ∧ row.status = status
  errors : ∀ channel code, dictGet item.deliveryErrors channel = some code ↔
    ∃ row ∈ db.deliveriesOf n.id, row.channel = channel ∧ row.errorCode = some code ∧ code ≠ ""
  domain : ∀ d ∈ db.domains, n.subjectKind = some "domain" → n.subjectKey = some d.id.str →
    item.subjectLabel = some d.hostname
  site : ∀ s ∈ db.sites, n.subjectKind = some "site" → n.subjectKey = some s.id.str →
    item.subjectLabel = some s.domain

/-- The list is complete, in the order of the notifications. -/
def Complete (db : Tables) (notifications : List Notification)
    (result : Except Raised (List Item)) : Prop :=
  ∃ items, result = .ok items ∧ List.Forall₂ (Listed db) notifications items

/-- The notification names no domain and no site by a key that reads as an id. -/
def NamesNoRow (n : Notification) : Prop :=
  n.subjectKind = some "domain" ∨ n.subjectKind = some "site" →
    ∀ key, n.subjectKey = some key → Uuid.ofText key = none

/-! ## The deliveries of an item -/

variable {channel : String}

theorem channel_injOn (db : Tables) (id : NotificationId) :
    ((db.deliveriesOf id).map (·.channel)).Nodup := by
  have hsub : (db.deliveriesOf id).Sublist db.deliveries := List.filter_sublist
  have hkeys : ((db.deliveriesOf id).map (·.idempotencyKey)).Nodup :=
    db.keys_nodup.sublist (hsub.map _)
  have hkey : (db.deliveriesOf id).map (·.idempotencyKey) =
      ((db.deliveriesOf id).map (·.channel)).map (fun channel => id.str ++ ":" ++ channel) := by
    rw [List.map_map]
    refine List.map_congr_left (fun row hrow => ?_)
    obtain ⟨hmem, hid⟩ := List.mem_filter.mp hrow
    rw [db.keyed row hmem, of_decide_eq_true hid]
    rfl
  rw [hkey] at hkeys
  exact List.Nodup.of_map _ hkeys

theorem get_deliveries {rows : List AlertRow} (hn : (rows.map (·.channel)).Nodup)
    {status : Status} :
    dictGet (rows.map (fun row => (row.channel, row.status))) channel = some status ↔
      ∃ row ∈ rows, row.channel = channel ∧ row.status = status := by
  constructor
  · intro h
    obtain ⟨row, hrow, heq⟩ := List.mem_map.mp (dictGet_eq_some h)
    obtain ⟨hc, hs⟩ := Prod.mk.inj heq
    exact ⟨row, hrow, hc, hs⟩
  · rintro ⟨row, hrow, rfl, rfl⟩
    exact dictGet_map (fun r : AlertRow => r.channel) (fun r => r.status) hn hrow

/-- The error that an item shows for a delivery. -/
def shownError (row : AlertRow) : Option String :=
  if truthy row.errorCode then row.errorCode else none

theorem shownError_eq_some {row : AlertRow} {code : String} :
    shownError row = some code ↔ row.errorCode = some code ∧ code ≠ "" := by
  unfold shownError
  cases row.errorCode with
  | none => simp
  | some text =>
    by_cases h : text = ""
    · simp only [h, truthy, Option.any_some, ne_eq, not_true_eq_false, decide_false,
        Bool.false_eq_true, if_false, Option.some.injEq, reduceCtorEq, false_iff, not_and,
        not_not]
      exact fun hc => hc.symm
    · simp only [truthy, Option.any_some, ne_eq, h, not_false_eq_true, decide_true, if_true,
        Option.some.injEq]
      exact ⟨fun hc => ⟨hc, hc ▸ h⟩, fun hc => hc.1⟩

theorem get_errors {rows : List AlertRow} (hn : (rows.map (·.channel)).Nodup) {code : String} :
    dictGet (rows.filterMap (fun row =>
        if truthy row.errorCode then row.errorCode.map (fun code => (row.channel, code))
        else none)) channel = some code ↔
      ∃ row ∈ rows, row.channel = channel ∧ row.errorCode = some code ∧ code ≠ "" := by
  have hshown : (fun row : AlertRow =>
        if truthy row.errorCode then row.errorCode.map (fun code => (row.channel, code))
        else none) =
      fun row => (shownError row).map (fun code => (row.channel, code)) := by
    funext row
    unfold shownError
    split <;> rfl
  rw [hshown]
  constructor
  · intro h
    obtain ⟨row, hrow, heq⟩ := List.mem_filterMap.mp (dictGet_eq_some h)
    obtain ⟨text, htext, hpair⟩ := Option.map_eq_some_iff.mp heq
    obtain ⟨rfl, rfl⟩ := Prod.mk.inj hpair
    exact ⟨row, hrow, rfl, shownError_eq_some.mp htext⟩
  · rintro ⟨row, hrow, rfl, hcode⟩
    rw [dictGet_filterMap (fun r : AlertRow => r.channel) shownError hn hrow]
    exact shownError_eq_some.mpr hcode

/-! ## One item -/

variable {db : Tables} {notifications : List Notification} {labels : Labels} {n : Notification}

/-- The labels name the subjects of the notification. -/
structure LabelsFit (db : Tables) (labels : Labels) (n : Notification) : Prop where
  domain : ∀ d ∈ db.domains, n.subjectKind = some "domain" → n.subjectKey = some d.id.str →
    dictGet labels ("domain", d.id.str) = some d.hostname
  site : ∀ s ∈ db.sites, n.subjectKind = some "site" → n.subjectKey = some s.id.str →
    dictGet labels ("site", s.id.str) = some s.domain

@[simp] theorem orElse_some_empty (text : String) : orElse (some text) "" = text := by
  by_cases h : text = ""
  · simp [orElse, truthy, h]
  · simp [orElse, truthy, h]

theorem listed_of_labels (hn : n ∈ notifications) (hlabels : LabelsFit db labels n) :
    Listed db n (serializeNotification n
      ((db.deliveries.filter (fun row => row.notificationId ∈ notifications.map (·.id))).filter
        (fun row => row.notificationId = n.id))
      (dictGet labels (orElse n.subjectKind "", orElse n.subjectKey ""))) := by
  have hrows : (db.deliveries.filter (fun row =>
        row.notificationId ∈ notifications.map (·.id))).filter
        (fun row => row.notificationId = n.id) = db.deliveriesOf n.id := by
    rw [List.filter_filter, Tables.deliveriesOf]
    refine List.filter_congr (fun row _ => ?_)
    by_cases hid : row.notificationId = n.id
    · have hmem : n.id ∈ notifications.map (·.id) := List.mem_map_of_mem hn
      simp only [hid, hmem, decide_true, Bool.and_self]
    · simp only [hid, decide_false, Bool.false_and]
  rw [hrows]
  refine ⟨rfl, fun _ _ => get_deliveries (channel_injOn db n.id),
    fun _ _ => get_errors (channel_injOn db n.id), ?_, ?_⟩
  · intro d hd hkind hkey
    show dictGet labels (orElse n.subjectKind "", orElse n.subjectKey "") = some d.hostname
    rw [hkind, hkey, orElse_some_empty, orElse_some_empty]
    exact hlabels.domain d hd hkind hkey
  · intro s hs hkind hkey
    show dictGet labels (orElse n.subjectKind "", orElse n.subjectKey "") = some s.domain
    rw [hkind, hkey, orElse_some_empty, orElse_some_empty]
    exact hlabels.site s hs hkind hkey

/-- With labels for all subjects the list is complete. -/
theorem complete_of_labels {scalars : Scalars}
    (hlabels : subjectLabels scalars db notifications = .ok labels)
    (hfit : ∀ n ∈ notifications, LabelsFit db labels n) :
    Complete db notifications (notificationProjection scalars db notifications) := by
  unfold notificationProjection
  by_cases hnil : notifications = []
  · rw [if_pos hnil, hnil]
    exact ⟨[], rfl, .nil⟩
  · rw [if_neg hnil, hlabels]
    refine ⟨_, rfl, ?_⟩
    rw [List.forall₂_map_right_iff, List.forall₂_same]
    exact fun n hn => listed_of_labels hn (hfit n hn)

/-! ## The subjects -/

variable {u : Uuid}

theorem mem_subjectIds {kind : String} :
    u ∈ subjectIds kind notifications ↔ ∃ n ∈ notifications, n.subjectKind = some kind ∧
      ∃ key, n.subjectKey = some key ∧ Uuid.ofText key = some u := by
  unfold subjectIds
  rw [List.mem_filterMap]
  refine exists_congr (fun n => and_congr_right (fun _ => ?_))
  cases hkey : n.subjectKey with
  | none => simp [truthy]
  | some key =>
    by_cases hempty : key = ""
    · -- an empty key is skipped, and does not read as an id
      have hread : Uuid.ofText "" = none := by decide
      simp [hempty, truthy, hread]
    · simp [hempty, truthy]

/-- No subject is looked up exactly when no notification names a row. -/
theorem subjectIds_nil_iff :
    (subjectIds "domain" notifications = [] ∧ subjectIds "site" notifications = []) ↔
      ∀ n ∈ notifications, NamesNoRow n := by
  simp only [List.eq_nil_iff_forall_not_mem, mem_subjectIds, not_exists, not_and]
  constructor
  · rintro ⟨hdomain, hsite⟩ n hn hkind key hkey
    rw [Option.eq_none_iff_forall_ne_some]
    intro u hu
    rcases hkind with hkind | hkind
    · exact hdomain u n hn hkind key hkey hu
    · exact hsite u n hn hkind key hkey hu
  · intro h
    constructor
    · intro u n hn hkind key hkey hu
      rw [h n hn (.inl hkind) key hkey] at hu
      cases hu
    · intro u n hn hkind key hkey hu
      rw [h n hn (.inr hkind) key hkey] at hu
      cases hu

theorem str_mem_subjectIds {kind : String} (hn : n ∈ notifications)
    (hkind : n.subjectKind = some kind) (hkey : n.subjectKey = some u.str) :
    u ∈ subjectIds kind notifications :=
  mem_subjectIds.mpr ⟨n, hn, hkind, u.str, hkey, ofText_str u⟩

/-! ## The query as it should be written -/

/-! ## The query as it is written -/

theorem labelsOf_unawaited {ρ : Type} (kind : String) (id : ρ → Uuid) (name : ρ → String)
    (rows : List ρ) (ids : List Uuid) :
    labelsOf unawaited kind id name rows ids =
      if ids = [] then .ok [] else .error .attributeError := rfl

theorem subjectLabels_unawaited (db : Tables) (notifications : List Notification) :
    subjectLabels unawaited db notifications =
      if subjectIds "domain" notifications = [] ∧ subjectIds "site" notifications = [] then .ok []
      else .error .attributeError := by
  rw [subjectLabels, labelsOf_unawaited, labelsOf_unawaited]
  by_cases hdomain : subjectIds "domain" notifications = []
  · by_cases hsite : subjectIds "site" notifications = []
    · rw [if_pos hdomain, if_pos hsite, if_pos ⟨hdomain, hsite⟩]
      rfl
    · rw [if_pos hdomain, if_neg hsite, if_neg (fun h => hsite h.2)]
      rfl
  · have hboth : ¬ (subjectIds "domain" notifications = [] ∧
        subjectIds "site" notifications = []) := fun h => hdomain h.1
    rw [if_neg hdomain, if_neg hboth]
    rfl

/-- **When alerts can be listed.** The list is complete exactly when no notification names a
domain or a site by a key that reads as an id: the first such key makes the projection raise. -/
theorem projection_complete_iff (db : Tables) (notifications : List Notification) :
    Complete db notifications (notificationProjection unawaited db notifications) ↔
      ∀ n ∈ notifications, NamesNoRow n := by
  rw [← subjectIds_nil_iff]
  have hlabels := subjectLabels_unawaited db notifications
  constructor
  · rintro ⟨items, hitems, -⟩
    by_contra hids
    rw [if_neg hids] at hlabels
    unfold notificationProjection at hitems
    by_cases hnil : notifications = []
    · subst hnil
      exact hids ⟨rfl, rfl⟩
    · rw [if_neg hnil, hlabels] at hitems
      cases hitems
  · intro hids
    rw [if_pos hids] at hlabels
    refine complete_of_labels hlabels (fun n hn => ⟨?_, ?_⟩)
    · intro d _ hkind hkey
      have hmem := str_mem_subjectIds hn hkind hkey
      rw [hids.1] at hmem
      cases hmem
    · intro s _ hkind hkey
      have hmem := str_mem_subjectIds hn hkind hkey
      rw [hids.2] at hmem
      cases hmem

/-- An alert about a site, as `create_operator_alert` stores it. -/
def siteAlert : Notification where
  id := ⟨0, Uuid.zero_lt⟩
  tenantId := 0
  userId := none
  priority := "normal"
  title := "Site down"
  body := ""
  groupKey := none
  category := "site"
  signalCode := some "site_down"
  subjectKind := some "site"
  subjectKey := some (Uuid.str ⟨1, by decide⟩)
  read := false
  createdAt := none

def oneSite : Tables where
  deliveries := []
  domains := []
  sites := [⟨⟨1, Uuid.one_lt⟩, "shop.test"⟩]
  keyed := fun _ h => nomatch h
  keys_nodup := List.nodup_nil
  domains_nodup := List.nodup_nil
  sites_nodup := List.nodup_singleton _

theorem site_alert_not_listed :
    notificationProjection unawaited oneSite [siteAlert] = .error .attributeError ∧
      ¬ Complete oneSite [siteAlert] (notificationProjection unawaited oneSite [siteAlert]) := by
  have hraised : notificationProjection unawaited oneSite [siteAlert] = .error .attributeError := by
    have hids : ⟨1, by decide⟩ ∈ subjectIds "site" [siteAlert] :=
      str_mem_subjectIds (List.mem_singleton_self _) rfl rfl
    have hlabels := subjectLabels_unawaited oneSite [siteAlert]
    rw [if_neg (fun h => List.ne_nil_of_mem hids h.2)] at hlabels
    rw [notificationProjection, if_neg (List.cons_ne_nil _ _), hlabels]
    rfl
  refine ⟨hraised, ?_⟩
  rintro ⟨items, hitems, -⟩
  rw [hraised] at hitems
  cases hitems

end MegaPanel.AlertDelivery

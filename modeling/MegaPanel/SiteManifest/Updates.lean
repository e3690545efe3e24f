import MegaPanel.Lib.Run
import MegaPanel.SiteManifest.Routes

set_option autoImplicit false

/-! # Concurrent updates of the manifest

The system of requests on one project: any number of them in progress, their parts
interleaved in any order. The history variable lists the committed updates.

An observer of the manifest is interested in its parts: the pages under a slug, the branding
and the webhook settings. Seen so, each route is meant to write one part and to leave the
others (`Parts.record`). It does, in a commit whose request finds the parts it does not
write as it has read them (`commit_atomic`). From there on the argument is about `Parts`
only.
-/

namespace MegaPanel.SiteManifest

open MegaPanel.Lib

abbrev RequestId := Nat

/-! ## The system -/

structure State where
  db : Db
  pending : RequestId → Option Pending

inductive Action
  | start (id : RequestId) (request : Request)
  | readSite (id : RequestId)
  | commit (id : RequestId)

/-- A request that fails is over and has changed nothing. -/
def step (s : State) : Action → Option State
  | .start id request =>
    match s.pending id with
    | some _ => none
    | none =>
      match start s.db request with
      | .error _ => some s
      | .ok pending => some { s with pending := Function.update s.pending id (some pending) }
  | .readSite id =>
    match s.pending id with
    | none => none
    | some pending =>
      match pending.copy with
      | .unread =>
        match readSite s.db pending with
        | .error _ => some { s with pending := Function.update s.pending id none }
        | .ok pending =>
          some { s with pending := Function.update s.pending id (some pending) }
      | _ => none
  | .commit id =>
    match s.pending id with
    | none => none
    | some pending =>
      some { db := (commit s.db pending).getD s.db
             pending := Function.update s.pending id none }

/-- A committed update, as its sender sees it. -/
inductive Commit
  | apply (id : DraftId) (page : Page)
  | branding (branding : Branding)
  | webhook (targetUrl secretEnc : String)
  deriving DecidableEq

def Work.committed : Work → Commit
  | .apply id draft _ _ _ => .apply id draft.page
  | .branding written _ _ => .branding written
  | .webhook targetUrl secretEnc => .webhook targetUrl secretEnc

/-- The history of committed updates, the oldest first. -/
def note (s : State) (a : Action) (history : List Commit) : List Commit :=
  match a with
  | .commit id =>
    match s.pending id with
    | none => history
    | some pending =>
      if (commit s.db pending).isSome then history ++ [pending.work.committed] else history
  | _ => history

/-! ## Parts of a manifest -/

variable {page : Page}

/-- The pages with a slug. -/
def pagesOf (pages : List Page) (slug : String) : List Page :=
  pages.filter (fun page => page.slug = slug)

theorem mem_pagesOf {pages : List Page} : page ∈ pagesOf pages page.slug ↔ page ∈ pages := by
  simp [pagesOf]

/-- The protected contact fields. -/
@[ext]
structure Webhook where
  url : Option String
  secret : Option String
  secretEnc : Option String
  deriving DecidableEq

def webhookOf (contacts : Dict) : Webhook where
  url := contacts.get "webhook_url"
  secret := contacts.get "webhook_secret"
  secretEnc := contacts.get "webhook_secret_enc"

/-- What an observer sees. -/
@[ext]
structure Parts where
  pages : String → List Page
  branding : Option Branding
  webhook : Webhook

def Manifest.parts (manifest : Manifest) : Parts where
  pages := pagesOf manifest.pages
  branding := manifest.branding
  webhook := webhookOf manifest.contacts

/-- Before there is a site, its branding is the project's. -/
def Db.parts (db : Db) : Parts :=
  match db.site with
  | some site => site.manifest.parts
  | none =>
    { pages := fun _ => []
      branding := db.project.branding.bind Branding.shown
      webhook := ⟨none, none, none⟩ }

/-- An update as one indivisible write of one part. -/
def Parts.record (parts : Parts) : Commit → Parts
  | .apply _ page => { parts with pages := Function.update parts.pages page.slug [page] }
  | .branding branding => { parts with branding := branding.shown }
  | .webhook targetUrl secretEnc =>
    { parts with webhook := ⟨some targetUrl, none, some secretEnc⟩ }

/-! ## The routes write one part of what they have read -/

theorem pagesOf_replacePage (pages : List Page) (page : Page) :
    pagesOf (replacePage pages page) = Function.update (pagesOf pages) page.slug [page] := by
  funext slug
  unfold pagesOf replacePage
  rw [List.filter_append, List.filter_filter]
  by_cases h : slug = page.slug
  · subst h
    rw [Function.update_self]
    simp
  rw [Function.update_of_ne h]
  have hkeep : pages.filter (fun q => q.slug = slug && q.slug ≠ page.slug)
      = pages.filter (fun q => q.slug = slug) := by
    refine List.filter_congr (fun q _ => ?_)
    by_cases hq : q.slug = slug
    · simp [hq, h]
    · simp [hq]
  have hnil : [page].filter (fun q => q.slug = slug) = [] := by
    simp [Ne.symm h]
  rw [hkeep, hnil, List.append_nil]

theorem publicContacts_protected {contacts : Dict} {key : String}
    (h : key ∈ protectedContactFields) : (publicContacts contacts).get key = none := by
  simp [publicContacts, Dict.get_filter, h]

theorem webhookOf_publicContacts (contacts : Dict) :
    webhookOf (publicContacts contacts) = ⟨none, none, none⟩ := by
  rw [webhookOf, Webhook.mk.injEq]
  refine ⟨publicContacts_protected ?_, publicContacts_protected ?_, publicContacts_protected ?_⟩
  all_goals decide

/-- Applying a draft keeps the protected contact fields of the manifest it has read. -/
theorem webhookOf_applied (facts contacts : Dict) :
    webhookOf ((publicContacts facts).merge
      (contacts.filter (fun key => decide (key ∈ protectedContactFields)))) = webhookOf contacts := by
  have hkey : ∀ key ∈ protectedContactFields,
      ((publicContacts facts).merge
        (contacts.filter (fun key => decide (key ∈ protectedContactFields)))).get key
        = contacts.get key := by
    intro key hkey
    rw [Dict.get_merge, publicContacts_protected hkey, Dict.get_filter, if_pos (by simpa using hkey),
      Option.or_none]
  rw [webhookOf, webhookOf, Webhook.mk.injEq]
  exact ⟨hkey "webhook_url" (by decide), hkey "webhook_secret" (by decide),
    hkey "webhook_secret_enc" (by decide)⟩

theorem webhookOf_set (contacts : Dict) (targetUrl secretEnc : String) :
    webhookOf (((contacts.set "webhook_url" targetUrl).set "webhook_secret_enc" secretEnc).pop
      "webhook_secret") = ⟨some targetUrl, none, some secretEnc⟩ := by
  rw [webhookOf, Webhook.mk.injEq]
  refine ⟨?_, Dict.get_pop_self .., ?_⟩
  · rw [Dict.get_pop_ne _ (by decide), Dict.get_set_ne _ (by decide), Dict.get_set_self]
  · rw [Dict.get_pop_ne _ (by decide), Dict.get_set_self]

/-- **A route is one write on the copy it holds.** -/
theorem writtenSite_parts (work : Work) (copy : Site) :
    (writtenSite work copy).manifest.parts = copy.manifest.parts.record work.committed := by
  cases work with
  | apply id draft override user loaded =>
    have hpages := pagesOf_replacePage copy.manifest.pages draft.page
    have hwebhook := webhookOf_applied draft.sources.contacts copy.manifest.contacts
    exact Parts.ext hpages rfl hwebhook
  | branding branding loaded projectVersion => rfl
  | webhook targetUrl secretEnc =>
    exact Parts.ext rfl rfl (webhookOf_set copy.manifest.contacts targetUrl secretEnc)

/-- The site inserted for a draft shows the page and the branding the request has read. -/
theorem createdSite_parts (draft : Draft) (loaded : Branding) :
    (createdSite draft loaded).manifest.parts =
      { pages := Function.update (fun _ => []) draft.page.slug [draft.page]
        branding := loaded.shown
        webhook := ⟨none, none, none⟩ } := by
  have hpages : pagesOf [draft.page]
      = Function.update (fun _ => []) draft.page.slug [draft.page] := by
    funext slug
    by_cases h : slug = draft.page.slug
    · subst h
      rw [Function.update_self]
      simp [pagesOf]
    · rw [Function.update_of_ne h]
      simp [pagesOf, Ne.symm h]
  exact Parts.ext hpages rfl (webhookOf_publicContacts draft.sources.contacts)

/-! ## Fresh commits -/

variable {work : Work} {stored copy : Manifest} {slug : String} {db db' : Db} {pending : Pending}

def Work.writesPage : Work → String → Bool
  | .apply _ draft _ _ _, slug => slug = draft.page.slug
  | _, _ => false

def Work.writesBranding : Work → Bool
  | .branding .. => true
  | _ => false

def Work.writesWebhook : Work → Bool
  | .webhook .. => true
  | _ => false

/-- The parts that a request does not write are stored as it has read them. -/
structure Unchanged (work : Work) (stored copy : Manifest) : Prop where
  pages : ∀ page ∈ stored.pages ++ copy.pages, work.writesPage page.slug = false →
    pagesOf stored.pages page.slug = pagesOf copy.pages page.slug
  branding : work.writesBranding = false → stored.branding = copy.branding
  webhook : work.writesWebhook = false → webhookOf stored.contacts = webhookOf copy.contacts

instance (work : Work) (stored copy : Manifest) : Decidable (Unchanged work stored copy) :=
  decidable_of_iff
    ((∀ page ∈ stored.pages ++ copy.pages, work.writesPage page.slug = false →
        pagesOf stored.pages page.slug = pagesOf copy.pages page.slug) ∧
      (work.writesBranding = false → stored.branding = copy.branding) ∧
      (work.writesWebhook = false → webhookOf stored.contacts = webhookOf copy.contacts))
    ⟨fun ⟨hp, hb, hw⟩ => ⟨hp, hb, hw⟩, fun ⟨hp, hb, hw⟩ => ⟨hp, hb, hw⟩⟩

/-- At its commit, a request finds what it does not write as it has read it. A request that
has found no site inserts one with the branding it has read; a branding request that has
found none writes to the project alone. -/
def Fresh (db : Db) (pending : Pending) : Prop :=
  match pending.copy with
  | .unread => True
  | .read copy =>
    match db.site with
    | none => True
    | some stored => Unchanged pending.work stored.manifest copy.manifest
  | .absent =>
    match pending.work with
    | .apply _ _ _ _ loaded =>
      db.site.isNone = true → db.project.branding.bind Branding.shown = loaded.shown
    | .branding branding loaded _ =>
      db.site.isNone = true ∧ (branding = loaded → db.project.branding = some loaded)
    | .webhook .. => True

instance (db : Db) (pending : Pending) : Decidable (Fresh db pending) := by
  unfold Fresh
  split
  · infer_instance
  · split <;> infer_instance
  · split <;> infer_instance

theorem Unchanged.pagesOf_eq (h : Unchanged work stored copy)
    (hslug : work.writesPage slug = false) :
    pagesOf stored.pages slug = pagesOf copy.pages slug := by
  have hnil : ∀ pages : List Page, (∀ page ∈ pages, page.slug ≠ slug) → pagesOf pages slug = [] := by
    intro pages hall
    exact List.filter_eq_nil_iff.mpr (fun page hpage => by simpa using hall page hpage)
  by_cases hex : ∃ page ∈ stored.pages ++ copy.pages, page.slug = slug
  · obtain ⟨page, hpage, rfl⟩ := hex
    exact h.pages page hpage hslug
  · push Not at hex
    rw [hnil _ (fun page hpage => hex page (List.mem_append_left _ hpage)),
      hnil _ (fun page hpage => hex page (List.mem_append_right _ hpage))]

/-- On an unchanged rest, writing to the copy and writing to the stored manifest look the
same. -/
theorem Unchanged.record (h : Unchanged work stored copy) :
    copy.parts.record work.committed = stored.parts.record work.committed := by
  cases work with
  | apply id draft override user loaded =>
    refine Parts.ext ?_ (h.branding rfl).symm (h.webhook rfl).symm
    funext slug
    show Function.update copy.parts.pages draft.page.slug [draft.page] slug
      = Function.update stored.parts.pages draft.page.slug [draft.page] slug
    by_cases hslug : slug = draft.page.slug
    · subst hslug
      rw [Function.update_self, Function.update_self]
    · rw [Function.update_of_ne hslug, Function.update_of_ne hslug]
      exact (h.pagesOf_eq (decide_eq_false hslug)).symm
  | branding written loaded projectVersion =>
    refine Parts.ext ?_ rfl (h.webhook rfl).symm
    funext slug
    exact (h.pagesOf_eq rfl).symm
  | webhook targetUrl secretEnc =>
    refine Parts.ext ?_ (h.branding rfl).symm rfl
    funext slug
    exact (h.pagesOf_eq rfl).symm

theorem writeOthers_site (db : Db) (work : Work) : (writeOthers db work).site = db.site := by
  cases work <;> rfl

/-- **A fresh commit is one write on the stored manifest.** -/
theorem commit_atomic (hfresh : Fresh db pending) (h : commit db pending = some db') :
    db'.parts = db.parts.record pending.work.committed := by
  obtain ⟨work, copy⟩ := pending
  cases copy with
  | unread => cases h
  | read copy =>
    obtain ⟨stored, hstored, rfl⟩ := Option.map_eq_some_iff.mp h
    have hunchanged : Unchanged work stored.manifest copy.manifest := by
      simpa only [Fresh, hstored] using hfresh
    have hparts : db.parts = stored.manifest.parts := by rw [Db.parts, hstored]
    rw [hparts, ← hunchanged.record, ← writtenSite_parts]
    rfl
  | absent =>
    cases work with
    | apply id draft override user loaded =>
      simp only [commit, Option.isSome_iff_ne_none] at h
      split_ifs at h with hnone
      cases h
      have hsite : db.site = none := not_not.mp hnone
      have hparts : db.parts = ⟨fun _ => [], loaded.shown, ⟨none, none, none⟩⟩ := by
        rw [Db.parts, hsite]
        exact Parts.ext rfl (hfresh (by rw [hsite]; rfl)) rfl
      rw [hparts]
      exact createdSite_parts draft loaded
    | branding written loaded projectVersion =>
      cases h
      obtain ⟨hnone, hsame⟩ := hfresh
      have hsite : db.site = none := Option.isNone_iff_eq_none.mp hnone
      have hproject : writeCol (some loaded) (some written) db.project.branding
          = some written := by
        by_cases heq : written = loaded
        · rw [hsame heq, writeCol_stored]
        · exact writeCol_dirty (fun hsome => heq (Option.some.inj hsome)) _
      simp only [Db.parts, writeOthers_site, hsite]
      refine Parts.ext rfl ?_ rfl
      show (writeCol (some loaded) (some written) db.project.branding).bind Branding.shown = _
      rw [hproject]
      rfl
    | webhook targetUrl secretEnc => cases h

/-! ## Nothing is lost -/

variable {history : List Commit} {id : DraftId} {c : Commit}

def brandings (history : List Commit) : List Branding :=
  history.filterMap (fun c => match c with | .branding branding => some branding | _ => none)

def webhooks (history : List Commit) : List (String × String) :=
  history.filterMap (fun c => match c with | .webhook url enc => some (url, enc) | _ => none)

/-- After the last time the draft was applied, a draft with the slug `slug` was. -/
def Replaced (history : List Commit) (id : DraftId) (slug : String) : Prop :=
  ∃ before after, history = before ++ after ∧ (∀ page, .apply id page ∉ after) ∧
    ∃ id' page, .apply id' page ∈ after ∧ page.slug = slug

/-- **No update is lost**: the manifest has the page of every draft marked applied, unless a
later application replaced its slug, the last committed branding and the last committed
webhook settings. While there is no site, its branding is the project's. -/
structure Kept (db : Db) (history : List Commit) : Prop where
  pages : ∀ id draft, db.drafts id = some draft → draft.state = .applied →
    Replaced history id draft.page.slug ∨
      ∃ site, db.site = some site ∧ draft.page ∈ site.manifest.pages
  branding : ∀ branding, (brandings history).getLast? = some branding →
    (∀ site, db.site = some site → site.manifest.branding = branding.shown) ∧
    (db.site = none → db.project.branding.bind Branding.shown = branding.shown)
  webhook : ∀ url enc, (webhooks history).getLast? = some (url, enc) →
    ∃ site, db.site = some site ∧ webhookOf site.manifest.contacts = ⟨some url, none, some enc⟩

/-- What `Kept` says of the site, in terms of parts. -/
theorem parts_branding_iff {shown : Option Branding} :
    db.parts.branding = shown ↔
      (∀ site, db.site = some site → site.manifest.branding = shown) ∧
      (db.site = none → db.project.branding.bind Branding.shown = shown) := by
  unfold Db.parts
  cases db.site with
  | none => simp
  | some site => simp [Manifest.parts]

theorem parts_webhook_iff {url enc : String} :
    db.parts.webhook = ⟨some url, none, some enc⟩ ↔
      ∃ site, db.site = some site ∧
        webhookOf site.manifest.contacts = ⟨some url, none, some enc⟩ := by
  unfold Db.parts
  cases db.site with
  | none => simp
  | some site => simp [Manifest.parts]

theorem mem_parts_pages :
    page ∈ db.parts.pages page.slug ↔ ∃ site, db.site = some site ∧ page ∈ site.manifest.pages := by
  unfold Db.parts
  cases db.site with
  | none => simp
  | some site => simp [Manifest.parts, mem_pagesOf]

theorem Replaced.snoc (h : Replaced history id slug) (hc : ∀ page, c ≠ .apply id page) :
    Replaced (history ++ [c]) id slug := by
  obtain ⟨before, after, rfl, hnot, id', page, hmem, hslug⟩ := h
  refine ⟨before, after ++ [c], List.append_assoc .., fun p hp => ?_, id', page,
    List.mem_append_left _ hmem, hslug⟩
  rcases List.mem_append.mp hp with hp | hp
  · exact hnot p hp
  · exact hc p (List.mem_singleton.mp hp).symm

theorem replaced_last {id' : DraftId} (hne : id ≠ id') :
    Replaced (history ++ [.apply id' page]) id page.slug := by
  refine ⟨history, [.apply id' page], rfl, fun p hp => ?_, id', page,
    List.mem_singleton.mpr rfl, rfl⟩
  cases List.mem_singleton.mp hp
  exact hne rfl

/-- A draft that is applied after `c` was applied before, or is the one that `c` applies. -/
def DraftsAfter (db : Db) (c : Commit) (db' : Db) : Prop :=
  ∀ id draft', db'.drafts id = some draft' → draft'.state = .applied →
    c = .apply id draft'.page ∨
      (∀ page, c ≠ .apply id page) ∧
        ∃ draft, db.drafts id = some draft ∧ draft.state = .applied ∧ draft.page = draft'.page

/-- **One write keeps what was kept.** -/
theorem Kept.record (h : Kept db history) (hparts : db'.parts = db.parts.record c)
    (hdrafts : DraftsAfter db c db') : Kept db' (history ++ [c]) := by
  constructor
  · intro id draft' hget happlied
    rw [← mem_parts_pages, hparts]
    rcases hdrafts id draft' hget happlied with rfl | ⟨hc, draft, hdraft, hstate, hpage⟩
    · right
      show draft'.page ∈ Function.update db.parts.pages draft'.page.slug [draft'.page] _
      rw [Function.update_self]
      exact List.mem_singleton.mpr rfl
    rw [← hpage]
    rcases h.pages id draft hdraft hstate with hreplaced | hmem
    · exact .inl (hreplaced.snoc hc)
    rw [← mem_parts_pages] at hmem
    cases c with
    | apply id' page =>
      by_cases hslug : draft.page.slug = page.slug
      · left
        rw [hslug]
        exact replaced_last (fun hid => hc page (hid ▸ rfl))
      · right
        show draft.page ∈ Function.update db.parts.pages page.slug [page] _
        rwa [Function.update_of_ne hslug]
    | branding written | webhook url enc => exact .inr hmem
  · intro branding hlast
    rw [← parts_branding_iff, hparts]
    rw [brandings, List.filterMap_append, ← brandings] at hlast
    cases c with
    | branding written =>
      simp only [List.filterMap_cons, List.filterMap_nil, List.getLast?_concat,
        Option.some.injEq] at hlast
      subst hlast
      rfl
    | apply id page | webhook url enc =>
      simp only [List.filterMap_cons, List.filterMap_nil, List.append_nil] at hlast
      exact parts_branding_iff.mpr (h.branding branding hlast)
  · intro url enc hlast
    rw [← parts_webhook_iff, hparts]
    rw [webhooks, List.filterMap_append, ← webhooks] at hlast
    cases c with
    | webhook url' enc' =>
      simp only [List.filterMap_cons, List.filterMap_nil, List.getLast?_concat,
        Option.some.injEq, Prod.mk.injEq] at hlast
      obtain ⟨rfl, rfl⟩ := hlast
      rfl
    | apply id page | branding written =>
      simp only [List.filterMap_cons, List.filterMap_nil, List.append_nil] at hlast
      exact parts_webhook_iff.mpr (h.webhook url enc hlast)

/-! ## Runs -/

variable {s t : State} {a : Action}

/-- A request that applies a draft holds the page of that draft. -/
def PagesHeld (s : State) : Prop :=
  ∀ rid pending, s.pending rid = some pending → ∀ id draft override user loaded,
    pending.work = .apply id draft override user loaded →
      ∃ stored, s.db.drafts id = some stored ∧ stored.page = draft.page

theorem commit_drafts (h : commit db pending = some db') :
    db'.drafts = (writeOthers db pending.work).drafts := by
  obtain ⟨work, copy⟩ := pending
  cases copy with
  | unread => cases h
  | read copy =>
    obtain ⟨_, _, rfl⟩ := Option.map_eq_some_iff.mp h
    rfl
  | absent =>
    cases work with
    | apply id draft override user loaded =>
      simp only [commit] at h
      split_ifs at h
      cases h
      rfl
    | branding written loaded projectVersion =>
      cases h
      rfl
    | webhook url enc => cases h

/-- Pages of drafts never change, and only the draft of the request is marked. -/
theorem commit_draft_cases (h : commit db pending = some db') (id : DraftId) :
    (db'.drafts id = db.drafts id ∧ ∀ draft override user loaded,
      pending.work ≠ .apply id draft override user loaded) ∨
    (∃ draft override user loaded, pending.work = .apply id draft override user loaded ∧
      db'.drafts id = (db.drafts id).map (·.markApplied override user)) := by
  rw [commit_drafts h]
  cases pending.work with
  | apply id' draft override user loaded =>
    by_cases hid : id = id'
    · subst hid
      exact .inr ⟨draft, override, user, loaded, rfl, Function.update_self ..⟩
    · refine .inl ⟨Function.update_of_ne hid .., fun _ _ _ _ heq => ?_⟩
      cases heq
      exact hid rfl
  | branding written loaded projectVersion | webhook url enc =>
    exact .inl ⟨rfl, fun _ _ _ _ heq => by cases heq⟩

theorem commit_draftsAfter
    (hheld : ∀ id draft override user loaded, pending.work = .apply id draft override user loaded →
      ∃ stored, db.drafts id = some stored ∧ stored.page = draft.page)
    (h : commit db pending = some db') : DraftsAfter db pending.work.committed db' := by
  intro id draft' hget happlied
  rcases commit_draft_cases h id with ⟨hsame, hother⟩ |
      ⟨draft, override, user, loaded, hwork, hmarked⟩
  · right
    refine ⟨fun page hpage => ?_, draft', hsame ▸ hget, happlied, rfl⟩
    cases hw : pending.work with
    | apply id' draft override user loaded =>
      rw [hw, Work.committed, Commit.apply.injEq] at hpage
      exact hother draft override user loaded (hpage.1 ▸ hw)
    | branding written loaded projectVersion | webhook url enc =>
      rw [hw] at hpage
      cases hpage
  · left
    obtain ⟨stored, hstored, hpage⟩ := hheld id draft override user loaded hwork
    rw [hmarked, hstored] at hget
    cases hget
    rw [hwork, Work.committed, ← hpage]
    rfl

theorem commit_pages (h : commit db pending = some db') {stored : Draft}
    (hstored : db.drafts id = some stored) :
    ∃ stored', db'.drafts id = some stored' ∧ stored'.page = stored.page := by
  rcases commit_draft_cases h id with ⟨hsame, -⟩ | ⟨draft, override, user, loaded, -, hmarked⟩
  · exact ⟨stored, hsame.trans hstored, rfl⟩
  · exact ⟨stored.markApplied override user, hmarked.trans (by rw [hstored]; rfl), rfl⟩

/-- A request starts with the row of the draft it applies. -/
theorem start_page {request : Request} (h : start db request = .ok pending) {draft : Draft}
    {override : Option QaOverride} {user : UserId} {loaded : Branding}
    (hwork : pending.work = .apply id draft override user loaded) : db.drafts id = some draft := by
  unfold start at h
  cases request with
  | apply id' override' user' =>
    dsimp only at h
    split at h
    · cases h
    split at h
    · cases h
    · next draft' hdraft =>
      split at h
      · cases h
      cases h
      cases hwork
      exact hdraft
  | branding body | webhook body =>
    dsimp only at h
    repeat' split at h
    all_goals cases h
    cases hwork

theorem readSite_work {pending' : Pending} (h : readSite db pending = .ok pending') :
    pending'.work = pending.work := by
  unfold readSite at h
  split at h
  · cases h
  split at h
  · split_ifs at h
    cases h
    rfl
  · cases h
    rfl

theorem PagesHeld.step (h : PagesHeld s) (hstep : SiteManifest.step s a = some t) :
    PagesHeld t := by
  cases a with
  | start id request =>
    simp only [SiteManifest.step] at hstep
    split at hstep
    · cases hstep
    split at hstep
    · cases hstep
      exact h
    · next pending hstart =>
      cases hstep
      intro rid p hp
      by_cases hrid : rid = id
      · subst hrid
        dsimp only at hp
        rw [Function.update_self] at hp
        cases hp
        intro did draft override user loaded hwork
        exact ⟨draft, start_page hstart hwork, rfl⟩
      · dsimp only at hp
        rw [Function.update_of_ne hrid] at hp
        exact h rid p hp
  | readSite id =>
    simp only [SiteManifest.step] at hstep
    split at hstep
    · cases hstep
    · next pending hpending =>
      split at hstep
      · split at hstep
        · cases hstep
          intro rid p hp
          dsimp only at hp
          by_cases hrid : rid = id
          · subst hrid
            rw [Function.update_self] at hp
            cases hp
          · rw [Function.update_of_ne hrid] at hp
            exact h rid p hp
        · next pending' hread =>
          cases hstep
          intro rid p hp
          dsimp only at hp
          by_cases hrid : rid = id
          · subst hrid
            rw [Function.update_self] at hp
            cases hp
            rw [readSite_work hread]
            exact h rid pending hpending
          · rw [Function.update_of_ne hrid] at hp
            exact h rid p hp
      · cases hstep
  | commit id =>
    simp only [SiteManifest.step] at hstep
    split at hstep
    · cases hstep
    · next pending hpending =>
      cases hstep
      intro rid p hp did draft override user loaded hwork
      dsimp only at hp
      by_cases hrid : rid = id
      · subst hrid
        rw [Function.update_self] at hp
        cases hp
      rw [Function.update_of_ne hrid] at hp
      obtain ⟨stored, hstored, hpage⟩ := h rid p hp did draft override user loaded hwork
      dsimp only
      cases hc : commit s.db pending with
      | none => exact ⟨stored, hstored, hpage⟩
      | some db' =>
        obtain ⟨stored', hstored', hpage'⟩ := commit_pages hc hstored
        exact ⟨stored', hstored', hpage'.trans hpage⟩

/-- The condition on a step: a commit is fresh. -/
def FreshCommit (s : State) : Action → Prop
  | .commit id =>
    match s.pending id with
    | none => True
    | some pending => Fresh s.db pending
  | _ => True

instance (s : State) (a : Action) : Decidable (FreshCommit s a) := by
  unfold FreshCommit
  split
  · split <;> infer_instance
  · infer_instance

/-- Only a commit changes rows. -/
theorem step_db (h : step s a = some t) (ha : ∀ id, a ≠ .commit id) : t.db = s.db := by
  cases a with
  | start id request | readSite id =>
    simp only [step] at h
    repeat' split at h
    all_goals cases h
    all_goals rfl
  | commit id => exact absurd rfl (ha id)

theorem Kept.step (h : Kept s.db history) (hheld : PagesHeld s) (hfresh : FreshCommit s a)
    (hstep : SiteManifest.step s a = some t) : Kept t.db (note s a history) := by
  cases a with
  | start id request | readSite id => exact step_db hstep (fun _ => by simp) ▸ h
  | commit id =>
    cases hpending : s.pending id with
    | none => simp [SiteManifest.step, hpending] at hstep
    | some pending =>
      simp only [SiteManifest.step, hpending] at hstep
      cases hstep
      have hfresh' : Fresh s.db pending := by simpa only [FreshCommit, hpending] using hfresh
      dsimp only
      cases hc : commit s.db pending with
      | none =>
        simp only [note, hpending, hc]
        exact h
      | some db' =>
        have hafter := commit_draftsAfter (hheld id pending hpending) hc
        have hrecord := h.record (commit_atomic hfresh' hc) hafter
        simp only [note, hpending, hc]
        exact hrecord

/-- **Fresh commits lose nothing.** From any state without requests in progress, in every
run of requests all of whose commits are fresh, every state has the pages of the drafts
marked applied, the last committed branding and the last committed webhook settings. -/
theorem fresh_updates_kept {s t : State} {history history' : List Commit} {run : List Action}
    (hidle : ∀ id, s.pending id = none) (hkept : Kept s.db history)
    (hfresh : Along step (fun s a _ => FreshCommit s a) s run)
    (hexec : exec (withGhost step note) (s, history) run = some (t, history')) :
    Kept t.db history' := by
  have hinv : ∀ (s : State × List Commit) (a : Action) (t : State × List Commit),
      Kept s.1.db s.2 ∧ PagesHeld s.1 → FreshCommit s.1 a →
      withGhost step note s a = some t → Kept t.1.db t.2 ∧ PagesHeld t.1 := by
    rintro ⟨s, history⟩ a ⟨t, history'⟩ ⟨hkept, hheld⟩ hfresh hstep
    obtain ⟨hs, hh⟩ := withGhost_eq_some.mp hstep
    dsimp only at hs hh hkept hheld hfresh
    subst hh
    exact ⟨hkept.step hheld hfresh hs, hheld.step hs⟩
  have hidle' : PagesHeld s := by
    intro rid pending hpending
    rw [hidle rid] at hpending
    cases hpending
  have hall : Along (withGhost step note) (fun s a _ => FreshCommit s.1 a) (s, history) run :=
    (along_withGhost note).mpr hfresh
  exact (exec_invariant hinv ⟨hkept, hidle'⟩ hall hexec).1

/-! ## Requests one after the other -/

/-! ## Two runs -/

/-- A reviewed draft of a page. -/
def reviewedDraft (slug : String) : Draft where
  state := .review
  currentQa := true
  lastQaVerdict := some .pass
  page := { slug := slug, design := none, content := "" }
  sources :=
    { plan := some true
      factsConfirmed := true
      domainSet := true
      contacts := ⟨fun _ => none⟩
      legal := ⟨fun _ => none⟩
      context := ⟨fun _ => none⟩
      authorBlocker := none
      designHash := none
      kitCssVars := ⟨fun _ => none⟩ }
  appliedBy := none
  qaOverride := none

/-- A project with a site without pages and two reviewed drafts. -/
def twoDrafts : State where
  db :=
    { project := { branding := some ⟨none, none⟩, version := 1 }
      site := some
        { manifest :=
            { cssVars := ⟨fun _ => none⟩
              design := none
              branding := none
              pages := []
              legal := ⟨fun _ => none⟩
              contacts := ⟨fun _ => none⟩
              context := ⟨fun _ => none⟩
              version := 1 }
          version := 1 }
      drafts := fun id =>
        match id with
        | 0 => some (reviewedDraft "a")
        | 1 => some (reviewedDraft "b")
        | _ => none }
  pending := fun _ => none

theorem twoDrafts_kept : Kept twoDrafts.db [] where
  pages := fun id draft hget happlied => by
    simp only [twoDrafts] at hget
    split at hget <;> cases hget <;> cases happlied
  branding := fun _ h => by cases h
  webhook := fun _ _ h => by cases h

/-- One request after the other. -/
def serialRun : List Action :=
  [.start 0 (.apply 0 none 7), .readSite 0, .commit 0,
   .start 1 (.webhook { targetUrl := .ok "https://example.org", secretEnc := "token" }), .commit 1,
   .start 2 (.apply 1 none 7), .readSite 2, .commit 2]

theorem fresh_updates_kept_serial :
    ∃ t history, exec (withGhost step note) (twoDrafts, []) serialRun = some (t, history) ∧
      history.length = 3 ∧ Kept t.db history := by
  have hlength : (exec (withGhost step note) (twoDrafts, []) serialRun).map (·.2.length)
      = some 3 := by decide +kernel
  obtain ⟨⟨t, history⟩, hexec, hthree⟩ := Option.map_eq_some_iff.mp hlength
  exact ⟨t, history, hexec, hthree,
    fresh_updates_kept (fun _ => rfl) twoDrafts_kept (by decide +kernel) hexec⟩

theorem not_replaced
    (h : ∀ c ∈ history, ∀ id' page, c = .apply id' page → page.slug = slug → id' = id) :
    ¬ Replaced history id slug := by
  rintro ⟨before, after, rfl, hnot, id', page, hmem, hslug⟩
  have hid := h _ (List.mem_append_right _ hmem) id' page rfl hslug
  exact hnot page (hid ▸ hmem)

/-- Two applications that have read the same manifest. -/
def overlapRun : List Action :=
  [.start 0 (.apply 0 none 7), .start 1 (.apply 1 none 7), .readSite 0, .readSite 1, .commit 0,
   .commit 1]

/-- The second commit of `overlapRun` removes the page of the first. -/
theorem fresh_updates_kept_overlap :
    ¬ ∀ (s t : State) (history history' : List Commit) (run : List Action),
      (∀ id, s.pending id = none) → Kept s.db history →
      exec (withGhost step note) (s, history) run = some (t, history') → Kept t.db history' := by
  intro h
  have hsome : (exec (withGhost step note) (twoDrafts, []) overlapRun).map (fun r =>
      (r.2, r.1.db.site.map (·.manifest.pages),
        (r.1.db.drafts 0).map (fun draft => (draft.state, draft.page))))
      = some ([.apply 0 ⟨"a", none, ""⟩, .apply 1 ⟨"b", none, ""⟩], some [⟨"b", none, ""⟩],
          some (.applied, ⟨"a", none, ""⟩)) := by decide +kernel
  obtain ⟨⟨t, history⟩, hexec, hout⟩ := Option.map_eq_some_iff.mp hsome
  simp only [Prod.mk.injEq] at hout
  obtain ⟨hhistory, hsite, hdraft⟩ := hout
  obtain ⟨draft, hget, hfields⟩ := Option.map_eq_some_iff.mp hdraft
  obtain ⟨hstate, hpage⟩ := Prod.mk.inj hfields
  have hkept := h twoDrafts t [] history overlapRun (fun _ => rfl) twoDrafts_kept hexec
  rcases hkept.pages 0 draft hget hstate with hreplaced | ⟨site, hs, hmem⟩
  · refine not_replaced ?_ hreplaced
    rw [hhistory, hpage]
    intro c hc id' page hceq
    subst hceq
    simp only [List.mem_cons, Commit.apply.injEq, List.not_mem_nil, or_false] at hc
    rcases hc with ⟨rfl, rfl⟩ | ⟨rfl, rfl⟩
    · exact fun _ => rfl
    · exact fun hne => absurd hne (by decide)
  · rw [hs, Option.map_some, Option.some.injEq] at hsite
    rw [hsite, hpage] at hmem
    exact absurd hmem (by decide)

end MegaPanel.SiteManifest

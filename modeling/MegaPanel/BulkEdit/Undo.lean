import MegaPanel.BulkEdit.Model

set_option autoImplicit false

/-! # What an undo restores

An undo writes back what `manifest.get` found under two keys before the edit. That is the inverse of
the edit when both keys were there; a key that was absent comes back as `null`, which
`SiteManifest` does not accept. After other changes the undo also takes those back that it was not
meant for, and it does so each time it is asked to (`bulk_undo_inverse`).
-/

namespace MegaPanel.BulkEdit

open MegaPanel.Lib

/-! ## What is asked of an undo -/

def isDict : Json → Bool
  | .dict _ => true
  | _ => false

def isTextDict : Json → Bool
  | .dict entries => entries.all (fun e => match e.2 with
      | .str _ => true
      | _ => false)
  | _ => false

/-- `SiteManifest.model_validate`: `others` is what it checks beside the two dictionaries. -/
def accepts (others : (String → Option Json) → Bool) (m : Manifest) : Bool :=
  others (Function.update (Function.update m.get "contacts" none) "css_vars" none)
    && (m.get "contacts").all isDict && (m.get "css_vars").all isTextDict

/-- The entry of a dictionary in a manifest. -/
def entry (m : Manifest) (field key : String) : Option Json :=
  match m.get field with
  | some (.dict entries) => Json.get? entries key
  | _ => none

/-- The dictionary has changed in the entries of `changes` only, and not at all if there are none. -/
structure FieldChanges (changes : List (String × Json)) (field : String) (m m' : Manifest) :
    Prop where
  untouched : changes = [] → m'.get field = m.get field
  entries : ∀ key, Json.get? changes key = none → entry m' field key = entry m field key

/-- Only entries that the edit set have changed. -/
structure OnlyChanges (body : BulkEditBody) (m m' : Manifest) : Prop where
  others : ∀ field, field ≠ "contacts" → field ≠ "css_vars" → m'.get field = m.get field
  contacts : FieldChanges body.contacts "contacts" m m'
  cssVars : FieldChanges body.cssVars "css_vars" m m'

/-! ## When it is met -/

/-- Both dictionaries are in the manifest. -/
def HasFields (m : Manifest) : Prop := m.get "contacts" ≠ none ∧ m.get "css_vars" ≠ none

/-- Since the manifest `before`, the entries that the edit did not set have the same values again, and
a dictionary that it left alone is the same, or `null` in place of an absent one. -/
structure FieldUndisturbed (changes : List (String × Json)) (field : String)
    (before now : Manifest) : Prop where
  untouched : changes = [] → now.get field = some ((before.get field).getD .null)
  entries : ∀ key, Json.get? changes key = none → entry now field key = entry before field key

structure Undisturbed (body : BulkEditBody) (before now : Manifest) : Prop where
  contacts : FieldUndisturbed body.contacts "contacts" before now
  cssVars : FieldUndisturbed body.cssVars "css_vars" before now

/-! ## One manifest -/

variable {changes : List (String × Json)} {body : BulkEditBody} {site site' : Site} {id : SiteId}
  {before now : Manifest}

theorem restore_undoItem (id : SiteId) (before now : Manifest) :
    (undoItem id before).restore now
      = (now.set "contacts" ((before.get "contacts").getD .null)).set "css_vars"
          ((before.get "css_vars").getD .null) := rfl

theorem restore_get (id : SiteId) (before now : Manifest) (field : String) :
    ((undoItem id before).restore now).get field =
      if field = "contacts" ∨ field = "css_vars" then some ((before.get field).getD .null)
      else now.get field := by
  rw [restore_undoItem]
  by_cases hcss : field = "css_vars"
  · rw [hcss, Manifest.get_set_self, if_pos (.inr rfl)]
  · rw [Manifest.get_set_ne _ hcss]
    by_cases hcontacts : field = "contacts"
    · rw [hcontacts, Manifest.get_set_self, if_pos (.inl rfl)]
    · rw [Manifest.get_set_ne _ hcontacts, if_neg (not_or.mpr ⟨hcontacts, hcss⟩)]

/-- An edit leaves the other keys alone. -/
theorem editField_get {field : String} {m m' : Manifest} (h : editField field changes m = .ok m')
    {other : String} (hne : other ≠ field) : m'.get other = m.get other := by
  unfold editField at h
  split at h
  · cases h
    rfl
  · split at h
    · cases h
      exact Manifest.get_set_ne _ hne _
    · cases h

theorem editSite_get (h : editSite body site = .ok site') {field : String}
    (hcontacts : field ≠ "contacts") (hcss : field ≠ "css_vars") :
    site'.manifest.get field = site.manifest.get field := by
  unfold editSite at h
  split at h
  · cases h
  · next m hm =>
    split at h
    · cases h
    · next m' hm' =>
      cases h
      exact (editField_get hm' hcss).trans (editField_get hm hcontacts)

theorem getD_eq_self {value : Option Json} : some (value.getD .null) = value ↔ value ≠ none := by
  cases value <;> simp

/-- **The first law, for one site.** -/
theorem restore_edited_eq_iff (h : editSite body site = .ok site') :
    (undoItem id site.manifest).restore site'.manifest = site.manifest ↔
      HasFields site.manifest := by
  constructor
  · intro heq
    have hget (field : String) := congrArg (fun m : Manifest => m.get field) heq
    have hcontacts := hget "contacts"
    have hcss := hget "css_vars"
    simp only [restore_get, true_or, or_true, if_true] at hcontacts hcss
    exact ⟨getD_eq_self.mp hcontacts, getD_eq_self.mp hcss⟩
  · rintro ⟨hcontacts, hcss⟩
    refine Manifest.ext (funext fun field => ?_)
    rw [restore_get]
    split
    · next hfield =>
      rcases hfield with rfl | rfl
      · exact getD_eq_self.mpr hcontacts
      · exact getD_eq_self.mpr hcss
    · next hfield =>
      obtain ⟨hne, hne'⟩ := not_or.mp hfield
      exact editSite_get h hne hne'

theorem restore_accepted_iff {others : (String → Option Json) → Bool}
    (h : editSite body site = .ok site') (haccepted : accepts others site.manifest = true) :
    accepts others ((undoItem id site.manifest).restore site'.manifest) = true ↔
      HasFields site.manifest := by
  constructor
  · intro hback
    simp only [accepts, restore_get, true_or, or_true, if_true, Bool.and_eq_true,
      Option.all_some] at hback
    constructor
    · intro hnone
      have hdict := hback.1.2
      rw [hnone] at hdict
      cases hdict
    · intro hnone
      have hdict := hback.2
      rw [hnone] at hdict
      cases hdict
  · intro hfields
    rw [(restore_edited_eq_iff h).mpr hfields]
    exact haccepted

/-- The entries of what an undo writes are those of before. -/
theorem entry_restore {field : String} (hfield : field = "contacts" ∨ field = "css_vars")
    (key : String) :
    entry ((undoItem id before).restore now) field key = entry before field key := by
  unfold entry
  rw [restore_get, if_pos hfield]
  cases before.get field with
  | none | some v => rfl

theorem fieldChanges_restore_iff {field : String}
    (hfield : field = "contacts" ∨ field = "css_vars") :
    FieldChanges changes field now ((undoItem id before).restore now) ↔
      FieldUndisturbed changes field before now := by
  constructor
  · rintro ⟨huntouched, hentries⟩
    refine ⟨fun hnil => ?_, fun key hkey => ?_⟩
    · rw [← huntouched hnil, restore_get, if_pos hfield]
    · rw [← hentries key hkey, entry_restore hfield]
  · rintro ⟨huntouched, hentries⟩
    refine ⟨fun hnil => ?_, fun key hkey => ?_⟩
    · rw [huntouched hnil, restore_get, if_pos hfield]
    · rw [hentries key hkey, entry_restore hfield]

/-- **The second law, for one site.** -/
theorem onlyChanges_restore_iff :
    OnlyChanges body now ((undoItem id before).restore now) ↔ Undisturbed body before now := by
  constructor
  · rintro ⟨_, hcontacts, hcss⟩
    exact ⟨(fieldChanges_restore_iff (.inl rfl)).mp hcontacts,
      (fieldChanges_restore_iff (.inr rfl)).mp hcss⟩
  · rintro ⟨hcontacts, hcss⟩
    refine ⟨fun field hne hne' => ?_, (fieldChanges_restore_iff (.inl rfl)).mpr hcontacts,
      (fieldChanges_restore_iff (.inr rfl)).mpr hcss⟩
    rw [restore_get, if_neg (not_or.mpr ⟨hne, hne'⟩)]

/-- **The third law, for one site**, where `undone` is the manifest after the first undo. -/
theorem restore_again_iff {undone later : Manifest}
    (hundone : undone = (undoItem id before).restore now) :
    (undoItem id before).restore later = later ↔
      later.get "contacts" = undone.get "contacts" ∧
        later.get "css_vars" = undone.get "css_vars" := by
  have hwritten : ∀ field, field = "contacts" ∨ field = "css_vars" →
      undone.get field = some ((before.get field).getD .null) := by
    intro field hfield
    rw [hundone, restore_get, if_pos hfield]
  rw [hwritten _ (.inl rfl), hwritten _ (.inr rfl)]
  constructor
  · intro heq
    have hget (field : String) (hfield : field = "contacts" ∨ field = "css_vars") :
        later.get field = some ((before.get field).getD .null) := by
      rw [← if_pos (c := field = "contacts" ∨ field = "css_vars") hfield
        (t := some ((before.get field).getD .null)) (e := later.get field), ← restore_get id, heq]
    exact ⟨hget _ (.inl rfl), hget _ (.inr rfl)⟩
  · rintro ⟨hcontacts, hcss⟩
    refine Manifest.ext (funext fun field => ?_)
    rw [restore_get]
    split
    · next hfield =>
      rcases hfield with rfl | rfl
      · exact hcontacts.symm
      · exact hcss.symm
    · rfl

/-! ## All sites of an operation -/

variable {db db₁ t : Db} {caller : Caller} {opId other : OperationId} {operation : BulkOperation}

theorem undoSites_get_of_notMem {items : List UndoItem} {id : SiteId}
    (h : id ∉ items.map (·.siteId)) (sites : Table SiteId Site) :
    (undoSites sites items).get id = sites.get id := by
  induction items generalizing sites with
  | nil => rfl
  | cons item rest ih =>
    rw [List.map_cons, List.mem_cons, not_or] at h
    rw [undoSites, List.foldl_cons]
    exact (ih h.2 _).trans (Table.get_modify_ne _ h.1 _)

theorem undoSites_get {items : List UndoItem} (hn : (items.map (·.siteId)).Nodup) {item : UndoItem}
    (hitem : item ∈ items) (sites : Table SiteId Site) :
    (undoSites sites items).get item.siteId = (sites.get item.siteId).map item.undoSite := by
  induction items generalizing sites with
  | nil => cases hitem
  | cons first rest ih =>
    rw [List.map_cons, List.nodup_cons] at hn
    rw [undoSites, List.foldl_cons]
    rcases List.mem_cons.mp hitem with rfl | hitem
    · exact (undoSites_get_of_notMem hn.1 _).trans (Table.get_modify_self ..)
    have hne : item.siteId ≠ first.siteId := by
      intro heq
      exact hn.1 (heq ▸ List.mem_map_of_mem hitem)
    exact (ih hn.2 hitem _).trans (by rw [Table.get_modify_ne _ hne])

/-- What an accepted edit leaves: the edited sites, and the operation with what they had before. -/
structure Edited (db db₁ : Db) (opId : OperationId) (body : BulkEditBody)
    (operation : BulkOperation) : Prop where
  nodup : body.siteIds.Nodup
  stored : db₁.operations.get opId = some operation
  opType : operation.opType = "bulk_edit"
  site : ∀ id ∈ body.siteIds, ∃ site site', db.sites.get id = some site ∧
    editSite body site = .ok site' ∧ db₁.sites.get id = some site' ∧
    undoItem id site.manifest ∈ operation.undo
  ids : operation.undo.map (·.siteId) = body.siteIds

theorem selectSites_ok {ids : List SiteId} {selected : List (SiteId × Site)}
    (h : selectSites db ids = .ok selected) :
    selected.map (·.1) = ids ∧ ∀ r ∈ selected, db.sites.get r.1 = some r.2 := by
  have hall : List.Forall₂ (fun id (r : SiteId × Site) => r.1 = id ∧ db.sites.get r.1 = some r.2)
      ids selected := by
    refine (mapM_forall₂ h).imp (fun id r hr => ?_)
    split at hr
    · next site hget =>
      cases hr
      exact ⟨rfl, hget⟩
    · cases hr
  clear h
  induction hall with
  | nil => exact ⟨rfl, fun r hr => by cases hr⟩
  | cons hr _ ih =>
    refine ⟨by rw [List.map_cons, hr.1, ih.1], fun r hmem => ?_⟩
    rcases List.mem_cons.mp hmem with rfl | hmem
    · exact hr.2
    · exact ih.2 r hmem

/-- The loop of `bulk_edit` edits each selected site. -/
theorem editAll_ok {selected edited : List (SiteId × Site)}
    (h : selected.mapM (fun r => (editSite body r.2).map (fun site => (r.1, site))) = .ok edited) :
    edited.map (·.1) = selected.map (·.1) ∧
      ∀ r ∈ selected, ∃ site', editSite body r.2 = .ok site' ∧ (r.1, site') ∈ edited := by
  have hall : List.Forall₂ (fun (r e : SiteId × Site) => e.1 = r.1 ∧ editSite body r.2 = .ok e.2)
      selected edited := by
    refine (mapM_forall₂ h).imp (fun r e he => ?_)
    cases hsite : editSite body r.2 with
    | error err => rw [hsite] at he; cases he
    | ok site' =>
      rw [hsite] at he
      cases he
      exact ⟨rfl, rfl⟩
  clear h
  induction hall with
  | nil => exact ⟨rfl, fun r hr => by cases hr⟩
  | @cons r e _ _ he _ ih =>
    refine ⟨by rw [List.map_cons, List.map_cons, he.1, ih.1], fun r' hmem => ?_⟩
    rcases List.mem_cons.mp hmem with rfl | hmem
    · exact ⟨e.2, he.2, by rw [← he.1]; exact List.mem_cons_self ..⟩
    · obtain ⟨site', hsite, hin⟩ := ih.2 r' hmem
      exact ⟨site', hsite, List.mem_cons_of_mem _ hin⟩

theorem bulkEdit_ok (h : bulkEdit db caller opId body = .ok db₁) :
    ∃ operation, Edited db db₁ opId body operation := by
  unfold bulkEdit at h
  split at h
  · cases h
  · next hvalid =>
    have hnodup : body.siteIds.Nodup := by
      have hvalid := Bool.eq_true_of_not_eq_false hvalid
      simp only [BulkEditBody.isValid, Bool.and_eq_true, decide_eq_true_eq] at hvalid
      exact hvalid.1.1.2
    split at h
    · cases h
    split at h
    · cases h
    · next selected hselected =>
      split at h
      · cases h
      split at h
      · cases h
      · next edited hedited =>
        cases h
        obtain ⟨hids, hrows⟩ := selectSites_ok hselected
        obtain ⟨hkeys, hsites⟩ := editAll_ok hedited
        have hnodup' : (edited.map (·.1)).Nodup := by
          rw [hkeys, hids]
          exact hnodup
        refine ⟨_, hnodup, Table.get_set_self _ _ _, rfl, fun id hid => ?_, ?_⟩
        · rw [← hids] at hid
          obtain ⟨r, hr, rfl⟩ := List.mem_map.mp hid
          obtain ⟨site', hsite', hin⟩ := hsites r hr
          exact ⟨r.2, site', hrows r hr, hsite', Table.get_insertAll_of_mem hnodup' hin _,
            List.mem_map.mpr ⟨r, hr, rfl⟩⟩
        · rw [List.map_map, ← hids]
          rfl

/-- An operation keeps its type and what it has stored. -/
def Kept (opId : OperationId) (operation : BulkOperation) (db : Db) : Prop :=
  ∃ current, db.operations.get opId = some current ∧ current.opType = operation.opType ∧
    current.undo = operation.undo

theorem bulkEdit_operations (h : bulkEdit db caller opId body = .ok t) (hne : other ≠ opId) :
    t.operations.get other = db.operations.get other := by
  unfold bulkEdit at h
  repeat' split at h
  all_goals cases h
  exact Table.get_set_ne _ hne _

theorem Kept.undo (hk : Kept opId operation db) (h : undoBulk db caller other = .ok t) :
    Kept opId operation t := by
  obtain ⟨current, hget, htype, hundo⟩ := hk
  unfold undoBulk at h
  split at h
  · cases h
  · next found hfound =>
    split_ifs at h
    cases h
    by_cases hid : opId = other
    · subst hid
      cases hfound.symm.trans hget
      exact ⟨_, Table.get_set_self _ _ _, htype, hundo⟩
    · exact ⟨current, (Table.get_set_ne _ hid _).trans hget, htype, hundo⟩

theorem Kept.step {a : Action} (hk : Kept opId operation db) (h : BulkEdit.step db a = some t) :
    Kept opId operation t := by
  cases a with
  | bulkEdit caller other body =>
    obtain ⟨current, hget, htype, hundo⟩ := hk
    simp only [BulkEdit.step] at h
    split at h
    · next hfree =>
      have hne : opId ≠ other := by
        rintro rfl
        rw [hget] at hfree
        cases hfree
      cases hedit : bulkEdit db caller other body with
      | error e => rw [hedit] at h; cases h
      | ok db' =>
        rw [hedit] at h
        cases h
        exact ⟨current, (bulkEdit_operations hedit hne).trans hget, htype, hundo⟩
    · cases h
  | undoBulk caller other =>
    simp only [BulkEdit.step] at h
    cases hundo : undoBulk db caller other with
    | error e => rw [hundo] at h; cases h
    | ok db' =>
      rw [hundo] at h
      cases h
      exact hk.undo hundo
  | updateWebhook id targetUrl secretEnc =>
    obtain ⟨site, _, h⟩ := Option.bind_eq_some_iff.mp h
    obtain ⟨site', _, rfl⟩ := toOption_map_eq_some h
    exact hk
  | write id manifest version =>
    obtain ⟨site, _, rfl⟩ := Option.map_eq_some_iff.mp h
    exact hk
  | createSite id site =>
    simp only [BulkEdit.step] at h
    split at h
    · cases h
      exact hk
    · cases h

theorem Kept.run {as : List Action} (hk : Kept opId operation db)
    (h : exec BulkEdit.step db as = some t) : Kept opId operation t :=
  exec_invariant (G := fun _ _ _ => True) (fun _ _ _ hk _ hstep => Kept.step hk hstep) hk
    (along_of_forall (Q := fun _ => True) (fun _ _ => trivial) db) h

/-- What an accepted undo makes of the manifests, for the operation of the edit. -/
theorem undoBulk_manifestOf {d d' : Db} (he : Edited db db₁ opId body operation)
    (hk : Kept opId operation d) (h : undoBulk d caller opId = .ok d') :
    (∀ id ∈ body.siteIds, ∀ before, db.manifestOf id = some before →
        d'.manifestOf id = (d.manifestOf id).map (undoItem id before).restore) ∧
      ∀ id, id ∉ body.siteIds → d'.manifestOf id = d.manifestOf id := by
  obtain ⟨current, hget, _, hundo⟩ := hk
  unfold undoBulk at h
  rw [hget] at h
  dsimp only at h
  split_ifs at h
  cases h
  rw [hundo]
  constructor
  · intro id hid before hbefore
    obtain ⟨site, site', hsite, _, _, hitem⟩ := he.site id hid
    rw [Db.manifestOf, hsite] at hbefore
    cases hbefore
    have hrow := undoSites_get (he.ids ▸ he.nodup) hitem d.sites
    show ((undoSites d.sites operation.undo).get (undoItem id site.manifest).siteId).map _ = _
    rw [hrow, Option.map_map, Db.manifestOf, Option.map_map]
    rfl
  · intro id hid
    have hrow := @undoSites_get_of_notMem operation.undo id (by rw [he.ids]; exact hid) d.sites
    show ((undoSites d.sites operation.undo).get id).map _ = _
    rw [hrow]
    rfl

/-! ## The laws -/

/-- **What an undo restores.** After an accepted edit:

* An undo that follows at once gives a site its manifest back exactly when both dictionaries were in
  it, and then and only then an accepted manifest is accepted again.
* An undo after any other requests changes only entries that the edit set exactly when everything else
  in the two dictionaries is as before the edit; the other sites keep their manifests.
* Another undo after that leaves the manifest of a site exactly when the two dictionaries are as the
  first one has left them. -/
theorem bulk_undo_inverse {db db₁ : Db} {caller : Caller} {opId : OperationId} {body : BulkEditBody}
    (others : (String → Option Json) → Bool) (hedit : bulkEdit db caller opId body = .ok db₁) :
    (∀ (user : Caller) (d : Db), undoBulk db₁ user opId = .ok d →
      ∀ id ∈ body.siteIds, ∀ m, db.manifestOf id = some m →
        (d.manifestOf id = some m ↔ HasFields m) ∧
        (accepts others m = true →
          (((d.manifestOf id).any (accepts others)) = true ↔ HasFields m))) ∧
    ∀ (as : List Action) (d : Db) (user : Caller) (d' : Db), exec step db₁ as = some d →
      undoBulk d user opId = .ok d' →
      (∀ id, id ∉ body.siteIds → d'.manifestOf id = d.manifestOf id) ∧
      (∀ id ∈ body.siteIds, ∀ before now undone, db.manifestOf id = some before →
        d.manifestOf id = some now → d'.manifestOf id = some undone →
        (OnlyChanges body now undone ↔ Undisturbed body before now)) ∧
      ∀ (bs : List Action) (e : Db) (user' : Caller) (e' : Db), exec step d' bs = some e →
        undoBulk e user' opId = .ok e' →
        ∀ id ∈ body.siteIds, ∀ undone later, d'.manifestOf id = some undone →
          e.manifestOf id = some later →
          (e'.manifestOf id = some later ↔
            later.get "contacts" = undone.get "contacts" ∧
              later.get "css_vars" = undone.get "css_vars") := by
  obtain ⟨operation, he⟩ := bulkEdit_ok hedit
  have hkept : Kept opId operation db₁ := ⟨operation, he.stored, rfl, rfl⟩
  refine ⟨fun user d hundo id hid m hm => ?_, fun as d user d' hrun hundo => ?_⟩
  · obtain ⟨site, site', hsite, hedited, hstored, _⟩ := he.site id hid
    have hback := (undoBulk_manifestOf he hkept hundo).1 id hid m hm
    have hnow : db₁.manifestOf id = some site'.manifest := by rw [Db.manifestOf, hstored]; rfl
    rw [Db.manifestOf, hsite] at hm
    cases hm
    rw [hback, hnow, Option.map_some, Option.some.injEq, Option.any_some]
    exact ⟨restore_edited_eq_iff hedited, restore_accepted_iff hedited⟩
  · have hkept' := hkept.run hrun
    obtain ⟨hback, hframe⟩ := undoBulk_manifestOf he hkept' hundo
    refine ⟨hframe, fun id hid before now undone hbefore hnow hundone => ?_,
      fun bs e user' e' hrun' hundo' id hid undone later hundone hlater => ?_⟩
    · rw [hback id hid before hbefore, hnow, Option.map_some] at hundone
      cases hundone
      exact onlyChanges_restore_iff
    · obtain ⟨site, _, hsite, _⟩ := he.site id hid
      have hbefore : db.manifestOf id = some site.manifest := by rw [Db.manifestOf, hsite]; rfl
      rw [hback id hid _ hbefore] at hundone
      obtain ⟨now, _, hundone⟩ := Option.map_eq_some_iff.mp hundone
      have hagain := (undoBulk_manifestOf he ((hkept'.undo hundo).run hrun') hundo').1 id hid
        site.manifest hbefore
      rw [hagain, hlater, Option.map_some, Option.some.injEq]
      exact restore_again_iff hundone.symm

/-! ## A key that was absent, and a webhook set in between -/

def manager : Caller := ⟨false, some 1⟩

/-- One site with these contacts and variables. -/
def oneSite (contacts cssVars : Option Json) : Db where
  sites := Table.empty.set 1
    ⟨1, ⟨fun key => if key = "contacts" then contacts else if key = "css_vars" then cssVars else none⟩,
      1⟩
  operations := Table.empty

def phoneEdit : BulkEditBody := ⟨[1], [("phone", .str "+7 900 000-00-00")], []⟩

/-- An edit of a site with both dictionaries is taken back. -/
theorem bulk_undo_inverse_restored :
    ∃ db₁ d, bulkEdit (oneSite (some (.dict [])) (some (.dict []))) manager 1 phoneEdit = .ok db₁ ∧
      undoBulk db₁ manager 1 = .ok d ∧
      d.manifestOf 1 = (oneSite (some (.dict [])) (some (.dict []))).manifestOf 1 := by
  have hfacts : (bulkEdit (oneSite (some (.dict [])) (some (.dict []))) manager 1
      phoneEdit).toOption.any (fun db₁ => (undoBulk db₁ manager 1).toOption.isSome) = true := by
    decide +kernel
  obtain ⟨db₁, hedit, hundo⟩ := (Option.any_eq_true _ _).mp hfacts
  obtain ⟨d, hundo⟩ := Option.isSome_iff_exists.mp hundo
  have hedit := toOption_eq_some.mp hedit
  have hundo := toOption_eq_some.mp hundo
  refine ⟨db₁, d, hedit, hundo, ?_⟩
  refine (((bulk_undo_inverse (fun _ => true) hedit).1 manager d hundo 1 (List.mem_singleton_self _)
    _ rfl).1.mpr ⟨?_, ?_⟩)
  · decide
  · decide

/-- An absent key comes back as `null` and is not accepted; a webhook set in between is lost. -/
theorem bulk_undo_not_inverse :
    ∃ db db₁ d e e' : Db, bulkEdit db manager 1 phoneEdit = .ok db₁ ∧
      undoBulk db₁ manager 1 = .ok d ∧ d.manifestOf 1 ≠ db.manifestOf 1 ∧
      (db.manifestOf 1).any (accepts fun _ => true) = true ∧
      (d.manifestOf 1).any (accepts fun _ => true) = false ∧
      exec step db₁ [.updateWebhook 1 "https://crm.example.test/hook" "enc:1"] = some e ∧
      undoBulk e manager 1 = .ok e' ∧
      (e.manifestOf 1).bind (fun m => entry m "contacts" "webhook_url")
        = some (.str "https://crm.example.test/hook") ∧
      (e'.manifestOf 1).bind (fun m => entry m "contacts" "webhook_url") = none := by
  have hfacts : (bulkEdit (oneSite none none) manager 1 phoneEdit).toOption.any (fun db₁ =>
      (undoBulk db₁ manager 1).toOption.any (fun d =>
        decide ((d.manifestOf 1).bind (·.get "contacts") = some .null)
          && decide ((d.manifestOf 1).any (accepts fun _ => true) = false))
      && (exec step db₁ [.updateWebhook 1 "https://crm.example.test/hook" "enc:1"]).any (fun e =>
        decide ((e.manifestOf 1).bind (fun m => entry m "contacts" "webhook_url")
          = some (.str "https://crm.example.test/hook"))
        && (undoBulk e manager 1).toOption.any (fun e' =>
          decide ((e'.manifestOf 1).bind (fun m => entry m "contacts" "webhook_url") = none))))
      = true := by decide +kernel
  obtain ⟨db₁, hedit, hfacts⟩ := (Option.any_eq_true _ _).mp hfacts
  obtain ⟨hatOnce, hlater⟩ := Bool.and_eq_true_iff.mp hfacts
  obtain ⟨d, hundo, hnull⟩ := (Option.any_eq_true _ _).mp hatOnce
  obtain ⟨hnull, hrefused⟩ := Bool.and_eq_true_iff.mp hnull
  obtain ⟨e, hrun, hhook⟩ := (Option.any_eq_true _ _).mp hlater
  obtain ⟨hhook, hlost⟩ := Bool.and_eq_true_iff.mp hhook
  obtain ⟨e', hundo', hlost⟩ := (Option.any_eq_true _ _).mp hlost
  refine ⟨oneSite none none, db₁, d, e, e', toOption_eq_some.mp hedit,
    toOption_eq_some.mp hundo, fun heq => ?_, by decide +kernel, of_decide_eq_true hrefused,
    hrun, toOption_eq_some.mp hundo', of_decide_eq_true hhook, of_decide_eq_true hlost⟩
  have hnull := of_decide_eq_true hnull
  rw [heq] at hnull
  cases hnull

end MegaPanel.BulkEdit

import MegaPanel.Basic
import MegaPanel.Lib.Dict
import MegaPanel.Lib.JsonValue
import MegaPanel.Lib.Run
import MegaPanel.Lib.Table

set_option autoImplicit false

/-! # Bulk edits of site manifests

`bulk_edit` and `undo_bulk` (`api/v1/bulk.py`), one request after another. A manifest is the JSON
object in the column `sites.manifest`, as a finite map from keys to values. An edit merges entries
into the two dictionaries `contacts` and `css_vars` of each selected site, and stores what these keys
had before in the row of the operation. An undo writes the two stored values back.

The webhook settings (`api/v1/sites.py`) are the other route that works on the stored JSON. The
routes that write a whole manifest (`apply_page_draft`, `update_project_branding`) may write any.
-/

namespace MegaPanel.BulkEdit

open MegaPanel.Lib

abbrev OperationId := Nat

/-! ## Manifests -/

/-- A stored JSON object. -/
@[ext] structure Manifest where
  get : String → Option Json

namespace Manifest

def set (m : Manifest) (key : String) (v : Json) : Manifest := ⟨Function.update m.get key (some v)⟩

@[simp] theorem get_set_self (m : Manifest) (key : String) (v : Json) :
    (m.set key v).get key = some v := Function.update_self ..

theorem get_set_ne (m : Manifest) {key other : String} (h : other ≠ key) (v : Json) :
    (m.set key v).get other = m.get other := Function.update_of_ne h ..

end Manifest

/-- `bool(value)`; a float is its `repr`. -/
def truthy : Json → Bool
  | .null => false
  | .bool b => b
  | .int n => decide (n ≠ 0)
  | .float text => decide (text ≠ "0.0") && decide (text ≠ "-0.0")
  | .str s => decide (s ≠ "")
  | .list items => !items.isEmpty
  | .dict entries => !entries.isEmpty

/-- `{**(value or {})}`; a value that is not a dictionary raises a `TypeError`. -/
def unpacked (value : Option Json) : Except HttpError (List (String × Json)) :=
  match value with
  | none => .ok []
  | some v =>
    if truthy v = false then .ok []
    else
      match v with
      | .dict entries => .ok entries
      | _ => .error ⟨500, "Internal Server Error"⟩

/-! ## Rows -/

/-- `sites` -/
structure Site where
  tenantId : TenantId
  manifest : Manifest
  version : Nat

/-- An item of `undo_payload["sites"]`; the writer always stores both keys. -/
structure UndoItem where
  siteId : SiteId
  contacts : Option Json
  cssVars : Option Json

inductive OperationStatus
  | done
  | undone
  deriving DecidableEq

/-- `bulk_operations` -/
structure BulkOperation where
  tenantId : TenantId
  opType : String
  status : OperationStatus
  updated : Nat
  undo : List UndoItem

structure Db where
  sites : Table SiteId Site
  operations : Table OperationId BulkOperation

/-- The manifest of a site. -/
def Db.manifestOf (db : Db) (id : SiteId) : Option Manifest := (db.sites.get id).map (·.manifest)

/-! ## The edit -/

def protectedContactKeys : List String := ["webhook_url", "webhook_secret", "webhook_secret_enc"]

/-- `BulkEditBody` -/
structure BulkEditBody where
  siteIds : List SiteId
  contacts : List (String × Json)
  cssVars : List (String × Json)

/-- `require_unique_site_ids` and `require_changes_and_protect_webhooks` -/
def BulkEditBody.isValid (body : BulkEditBody) : Bool :=
  !body.siteIds.isEmpty && decide body.siteIds.Nodup
    && !(body.contacts.isEmpty && body.cssVars.isEmpty)
    && protectedContactKeys.all (fun key => (Json.get? body.contacts key).isNone)

/-- The user of a request. -/
structure Caller where
  superadmin : Bool
  tenantId : Option TenantId

def Caller.mayUse (caller : Caller) (tenantId : TenantId) : Bool :=
  caller.superadmin || decide (caller.tenantId = some tenantId)

/-- `{**(manifest.get(field) or {}), **changes}`, if there are changes. -/
def editField (field : String) (changes : List (String × Json)) (m : Manifest) :
    Except HttpError Manifest :=
  if changes = [] then .ok m
  else
    match unpacked (m.get field) with
    | .ok entries => .ok (m.set field (.dict (Json.merge entries changes)))
    | .error e => .error e

def editSite (body : BulkEditBody) (site : Site) : Except HttpError Site :=
  match editField "contacts" body.contacts site.manifest with
  | .error e => .error e
  | .ok m =>
    match editField "css_vars" body.cssVars m with
    | .error e => .error e
    | .ok m => .ok { site with manifest := m, version := site.version + 1 }

def undoItem (id : SiteId) (m : Manifest) : UndoItem where
  siteId := id
  contacts := some ((m.get "contacts").getD .null)
  cssVars := some ((m.get "css_vars").getD .null)

def selectSites (db : Db) (siteIds : List SiteId) : Except HttpError (List (SiteId × Site)) :=
  siteIds.mapM (fun id =>
    match db.sites.get id with
    | some site => .ok (id, site)
    | none => .error ⟨404, "One or more sites were not found"⟩)

/-- `bulk_edit`; `opId` is the id of the operation. -/
def bulkEdit (db : Db) (caller : Caller) (opId : OperationId) (body : BulkEditBody) :
    Except HttpError Db :=
  if body.isValid = false then .error ⟨422, "Select contacts or theme values to update"⟩
  else if caller.tenantId = none ∧ caller.superadmin = false then .error ⟨403, "Tenant required"⟩
  else
    match selectSites db body.siteIds with
    | .error e => .error e
    | .ok selected =>
      if selected.any (fun r => !caller.mayUse r.2.tenantId) then .error ⟨403, "Forbidden"⟩
      else
        match selected.mapM (fun r => (editSite body r.2).map (fun site => (r.1, site))) with
        | .error e => .error e
        | .ok edited =>
          .ok
            { sites := db.sites.insertAll edited
              operations := db.operations.set opId
                { tenantId := caller.tenantId.getD ((selected.map (·.2.tenantId)).headD 0)
                  opType := "bulk_edit"
                  status := .done
                  updated := selected.length
                  undo := selected.map (fun r => undoItem r.1 r.2.manifest) } }

/-! ## The undo -/

def UndoItem.restore (item : UndoItem) (m : Manifest) : Manifest :=
  let m := match item.contacts with
    | some v => m.set "contacts" v
    | none => m
  match item.cssVars with
  | some v => m.set "css_vars" v
  | none => m

def UndoItem.undoSite (item : UndoItem) (site : Site) : Site :=
  { site with manifest := item.restore site.manifest, version := site.version + 1 }

def undoSites (sites : Table SiteId Site) (items : List UndoItem) : Table SiteId Site :=
  items.foldl (fun sites item => sites.modify item.siteId item.undoSite) sites

/-- `undo_bulk` -/
def undoBulk (db : Db) (caller : Caller) (opId : OperationId) : Except HttpError Db :=
  match db.operations.get opId with
  | none => .error ⟨404, "Operation not found"⟩
  | some operation =>
    if caller.mayUse operation.tenantId = false then .error ⟨403, "Forbidden"⟩
    else if operation.opType ≠ "bulk_edit" then
      .error ⟨400, "Undo not supported for this operation"⟩
    else
      .ok
        { sites := undoSites db.sites operation.undo
          operations := db.operations.set opId { operation with status := .undone } }

/-! ## The other routes -/

/-- `update_webhook_settings`, with an accepted target and the encrypted secret. -/
def updateWebhookSettings (site : Site) (targetUrl secretEnc : String) : Except HttpError Site :=
  match unpacked (site.manifest.get "contacts") with
  | .error e => .error e
  | .ok entries =>
    let contacts := Json.merge entries
      [("webhook_url", .str targetUrl), ("webhook_secret_enc", .str secretEnc)]
    let contacts := contacts.filter (fun e => e.1 ≠ "webhook_secret")
    .ok { site with manifest := site.manifest.set "contacts" (.dict contacts) }

/-! ## Steps -/

inductive Action
  | bulkEdit (caller : Caller) (opId : OperationId) (body : BulkEditBody)
  | undoBulk (caller : Caller) (opId : OperationId)
  | updateWebhook (id : SiteId) (targetUrl secretEnc : String)
  /-- A route that writes a whole manifest. -/
  | write (id : SiteId) (manifest : Manifest) (version : Nat)
  | createSite (id : SiteId) (site : Site)

def step (db : Db) : Action → Option Db
  | .bulkEdit caller opId body =>
    if (db.operations.get opId).isNone then (bulkEdit db caller opId body).toOption else none
  | .undoBulk caller opId => (undoBulk db caller opId).toOption
  | .updateWebhook id targetUrl secretEnc =>
    (db.sites.get id).bind (fun site =>
      (updateWebhookSettings site targetUrl secretEnc).toOption.map (fun site =>
        { db with sites := db.sites.set id site }))
  | .write id manifest version =>
    (db.sites.get id).map (fun site =>
      { db with sites := db.sites.set id { site with manifest := manifest, version := version } })
  | .createSite id site =>
    if (db.sites.get id).isNone then some { db with sites := db.sites.set id site } else none

end MegaPanel.BulkEdit

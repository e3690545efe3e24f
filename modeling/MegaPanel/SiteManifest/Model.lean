import MegaPanel.Basic

set_option autoImplicit false

/-! # The stored site manifest

The rows behind `Site.manifest`: the site with its manifest (`SiteManifest` of the shared
package), the project with its branding, and the page drafts. The project has at most one
site, `sites.project_id` being unique, and the site is created by the first draft applied.

A JSON object is a finite map from keys to values in JSON text, and of a page only the slug
and the design are looked into.
-/

namespace MegaPanel.SiteManifest

abbrev DraftId := Nat

/-! ## Dictionaries -/

/-- A JSON object; values are JSON texts. -/
structure Dict where
  get : String → Option String

namespace Dict

def set (d : Dict) (key value : String) : Dict := ⟨Function.update d.get key (some value)⟩

/-- `d.pop(key, None)` -/
def pop (d : Dict) (key : String) : Dict := ⟨Function.update d.get key none⟩

/-- `{key: value for key, value in d.items() if keep(key)}` -/
def filter (d : Dict) (keep : String → Bool) : Dict :=
  ⟨fun key => if keep key then d.get key else none⟩

/-- `{**a, **b}` -/
def merge (a b : Dict) : Dict := ⟨fun key => (b.get key).or (a.get key)⟩

@[simp] theorem get_set_self (d : Dict) (key value : String) :
    (d.set key value).get key = some value := Function.update_self ..

theorem get_set_ne (d : Dict) {key other : String} (h : other ≠ key) (value : String) :
    (d.set key value).get other = d.get other := Function.update_of_ne h ..

@[simp] theorem get_pop_self (d : Dict) (key : String) : (d.pop key).get key = none :=
  Function.update_self ..

theorem get_pop_ne (d : Dict) {key other : String} (h : other ≠ key) :
    (d.pop key).get other = d.get other := Function.update_of_ne h ..

theorem get_filter (d : Dict) (keep : String → Bool) (key : String) :
    (d.filter keep).get key = if keep key then d.get key else none := rfl

theorem get_merge (a b : Dict) (key : String) :
    (a.merge b).get key = (b.get key).or (a.get key) := rfl

end Dict

/-- `PROTECTED_CONTACT_FIELDS` -/
def protectedContactFields : List String := ["webhook_url", "webhook_secret", "webhook_secret_enc"]

/-- The contacts of `_public_fact_values`. -/
def publicContacts (contacts : Dict) : Dict :=
  contacts.filter (fun key =>
    !decide (key ∈ protectedContactFields ++ ["email", "private_lead_email"]))

/-! ## Rows -/

/-- `DesignSnapshot`: the profile hash, and the other fields as JSON text. -/
structure Design where
  profileHash : Option String
  rest : String
  deriving DecidableEq

/-- `PageManifest` -/
structure Page where
  slug : String
  design : Option Design
  content : String
  deriving DecidableEq

structure BrandLogo where
  assetId : String
  storedSha256 : String
  alt : String
  deriving DecidableEq

structure BrandFavicon where
  assetId : String
  storedSha256 : String
  deriving DecidableEq

/-- `SiteBranding` -/
structure Branding where
  logo : Option BrandLogo
  favicon : Option BrandFavicon
  deriving DecidableEq

/-- `branding if branding.logo or branding.favicon else None` -/
def Branding.shown (branding : Branding) : Option Branding :=
  if branding.logo.isSome || branding.favicon.isSome then some branding else none

/-- `SiteManifest`, without the fields fixed when the site is created. -/
structure Manifest where
  cssVars : Dict
  design : Option Design
  branding : Option Branding
  pages : List Page
  legal : Dict
  contacts : Dict
  context : Dict
  version : Nat

/-- `sites` -/
structure Site where
  manifest : Manifest
  version : Nat

/-- `page_drafts.state` -/
inductive DraftState
  | queued
  | draft
  | review
  | applied
  | rejected
  deriving DecidableEq

/-- `page_drafts.last_qa_verdict` -/
inductive Verdict
  | pass
  | warn
  | block
  deriving DecidableEq

/-- `QaOverrideIn` -/
structure QaOverride where
  reason : String
  justification : String
  deriving DecidableEq

/-- What `apply_page_draft` finds in the rows that none of the requests here change: the page
plan (`none` for no plan, then whether it is approved and has a fact revision), the facts,
the author profile, the design profile and the kit. -/
structure ApplySources where
  plan : Option Bool
  factsConfirmed : Bool
  domainSet : Bool
  contacts : Dict
  legal : Dict
  context : Dict
  authorBlocker : Option String
  designHash : Option String
  kitCssVars : Dict

/-- `currentQa` says whether `_current_qa_run` finds a run. -/
structure Draft where
  state : DraftState
  currentQa : Bool
  lastQaVerdict : Option Verdict
  page : Page
  sources : ApplySources
  appliedBy : Option UserId
  qaOverride : Option QaOverride

/-- `projects`: the branding, `none` when the stored one does not validate. -/
structure Project where
  branding : Option Branding
  version : Nat
  deriving DecidableEq

/-- The project, its site and its drafts. `project.site_id` is written in the transaction
that inserts the site, so it is set when there is one. -/
structure Db where
  project : Project
  site : Option Site
  drafts : DraftId → Option Draft

end MegaPanel.SiteManifest

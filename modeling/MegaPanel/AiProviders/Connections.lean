import MegaPanel.Basic
import MegaPanel.Egress.Guard
import MegaPanel.Lib.Settles
import MegaPanel.Lib.Table

set_option autoImplicit false

/-! # Connections to AI providers

`api/v1/ai_providers.py`: an operator registers a provider with its key, the ids of its models
and their prices, switches it on or off, changes single fields and deletes it. The bodies are
the ones the schemas accept, with each field of an update left out, `null` or given; the rows
are the ones the table accepts.

A request that fails writes nothing. An `HTTPException` is an answer to the client, every other
exception is not. The texts that `get_encryptor().encrypt` returns are base64 and of an open type
`κ`; audit rows are left out, their payloads repeat texts of the row.
-/

namespace MegaPanel.AiProviders

open MegaPanel.Lib

/-! ## Request bodies -/

/-- A field of a body read with `model_dump(exclude_unset=True)`. -/
inductive Field (α : Type)
  | unset
  | null
  | value (a : α)
  deriving DecidableEq

/-- A text under `Field(min_length=low, max_length=high)`. -/
abbrev Bounded (low high : Nat) := {text : List Char // low ≤ text.length ∧ text.length ≤ high}

/-- `ProviderPricingIn`; the prices are neither infinite nor NaN. -/
structure ProviderPricing where
  inputPriceUsdPerMillion : NNRat
  outputPriceUsdPerMillion : NNRat
  isFree : Option Bool
  source : Bounded 1 256
  observedAt : Time
  deriving DecidableEq

/-- A dictionary from model ids to prices. -/
abbrev ModelPricing := List (List Char × ProviderPricing)

/-- A list under `Field(max_length=100)`. -/
abbrev ModelIds := {ids : List (List Char) // ids.length ≤ 100}

inductive Kind
  | native
  | openaiCompatible
  deriving DecidableEq

/-- `str` of an `HttpUrl`: a NUL is rejected or percent-encoded. -/
structure HttpUrl where
  text : List Char
  noNul : Char.ofNat 0 ∉ text
  deriving DecidableEq

structure ProviderConnectionCreate where
  providerId : Bounded 1 64
  label : Bounded 1 128
  kind : Kind
  baseUrl : Option HttpUrl
  apiKey : Bounded 1 4096
  models : ModelIds
  modelPricing : ModelPricing

structure ProviderConnectionUpdate where
  label : Field (Bounded 1 128)
  apiKey : Field (Bounded 1 4096)
  models : Field ModelIds
  modelPricing : Field ModelPricing
  deriving DecidableEq

/-- No field is set. -/
def ProviderConnectionUpdate.empty : ProviderConnectionUpdate := ⟨.unset, .unset, .unset, .unset⟩

/-! ## Stored connections -/

/-- What a text column, or a string inside a JSON column, can hold. -/
def storable (text : List Char) : Bool := decide (Char.ofNat 0 ∉ text)

/-- `String(size)` -/
def varchar (size : Nat) (text : List Char) : Bool := decide (text.length ≤ size) && storable text

/-- `AIProviderConnection` as a session holds it. -/
structure Connection (κ : Type) where
  providerId : List Char
  label : Option (List Char)
  kind : Kind
  baseUrl : Option (List Char)
  encryptedApiKey : κ
  credentialLast4 : Option (List Char)
  modelIds : List (List Char)
  /-- `metadata_json["model_pricing"]` -/
  modelPricing : ModelPricing
  enabled : Bool

/-- The table accepts the row. -/
def Connection.fits {κ : Type} (c : Connection κ) : Bool :=
  varchar 64 c.providerId && c.label.any (varchar 128) && c.baseUrl.all (varchar 2048) &&
    c.credentialLast4.all (varchar 4) && c.modelIds.all storable &&
    c.modelPricing.all (fun entry => storable entry.1 && storable entry.2.source.1)

/-- A stored row. -/
abbrev Row (κ : Type) := {c : Connection κ // c.fits = true}

abbrev ConnectionId := Nat

abbrev Db (κ : Type) := Table ConnectionId (Row κ)

/-! ## How a request ends -/

inductive Failure
  /-- `HTTPException` -/
  | http (e : HttpError)
  | typeError
  | valueError
  /-- An error of the database at the flush -/
  | database
  deriving DecidableEq

/-- The failure is an answer that blames the request. -/
def Failure.IsClientError : Failure → Prop
  | .http e => 400 ≤ e.status ∧ e.status < 500
  | _ => False

def notFound : HttpError := ⟨404, "Provider connection not found"⟩
def pricingMismatch : HttpError := ⟨422, "Pricing metadata must match registered model IDs"⟩
def baseUrlRequired : HttpError := ⟨422, "base_url is required for compatible providers"⟩
def nativeUnavailable : HttpError := ⟨422, "Native provider adapter is not available"⟩

/-- `set(pricing).issubset(ids)` -/
def covers (ids : List (List Char)) (pricing : ModelPricing) : Bool :=
  pricing.all (fun entry => decide (entry.1 ∈ ids))

/-- `value[-4:]` -/
def last4 (value : List Char) : List Char := value.drop (value.length - 4)

/-- `api_key.strip()` -/
def stripKey (apiKey : List Char) : List Char := Text.stripBy Text.isSpace apiKey

variable {κ : Type}

/-- What the routes work with: encryption and the guard of endpoints. -/
structure Env (κ : Type) where
  encrypt : List Char → κ
  guard : Egress.EgressGuard
  library : Ssrf.Library

/-- `encrypt_provider_key` -/
def encryptProviderKey (env : Env κ) (apiKey : List Char) : Except Failure (κ × List Char) :=
  let value := stripKey apiKey
  if value = [] then .error .valueError
  else .ok (env.encrypt value, last4 value)

/-- The flush of a new or changed row. -/
def save (db : Db κ) (id : ConnectionId) (c : Connection κ) : Except Failure (Db κ) :=
  if h : c.fits = true then .ok (db.set id ⟨c, h⟩) else .error .database

/-! ## Creating -/

/-- `registry.ids()` -/
def nativeIds : List (List Char) :=
  ["anthropic".toList, "deepseek".toList, "openai".toList, "zhipu_glm".toList]

/-- The checks of the provider before the key is encrypted. -/
def checkProvider (env : Env κ) (body : ProviderConnectionCreate) : Except Failure Unit :=
  match body.kind with
  | .openaiCompatible =>
    match body.baseUrl with
    | none => .error (.http baseUrlRequired)
    | some url =>
      match env.guard.assertAllowed env.library url.text with
      | .ok () => .ok ()
      | .error (.permission message) => .error (.http ⟨422, message⟩)
      | .error .valueError => .error .valueError
  | .native => if body.providerId.1 ∈ nativeIds then .ok () else .error (.http nativeUnavailable)

/-- `create_provider_connection`; `id` is the key drawn for the new row. -/
def createProviderConnection (env : Env κ) (db : Db κ) (id : ConnectionId)
    (body : ProviderConnectionCreate) : Except Failure (Db κ) := do
  if !covers body.models.1 body.modelPricing then
    .error (.http pricingMismatch)
  else
    checkProvider env body
    let encrypted ← encryptProviderKey env body.apiKey.1
    save db id {
      providerId := body.providerId.1
      label := some body.label.1
      kind := body.kind
      baseUrl := body.baseUrl.map HttpUrl.text
      encryptedApiKey := encrypted.1
      credentialLast4 := some encrypted.2
      modelIds := body.models.1
      modelPricing := body.modelPricing
      enabled := false }

/-! ## Updating -/

/-- `set(changes.get("models", connection.model_ids))` -/
def readModelIds (models : Field ModelIds) (stored : List (List Char)) :
    Except Failure (List (List Char)) :=
  match models with
  | .unset => .ok stored
  | .null => .error .typeError
  | .value ids => .ok ids.1

/-- The check of the prices given. -/
def checkPricing (pricing : Field ModelPricing) (ids : List (List Char)) : Except Failure Unit :=
  match pricing with
  | .unset => .ok ()
  | .null => .error .typeError
  | .value entries => if covers ids entries then .ok () else .error (.http pricingMismatch)

/-- A new key replaces the stored one; `null` leaves it. -/
def replaceKey (env : Env κ) (apiKey : Field (Bounded 1 4096)) (c : Connection κ) :
    Except Failure (Connection κ) :=
  match apiKey with
  | .value key => do
    let encrypted ← encryptProviderKey env key.1
    .ok { c with encryptedApiKey := encrypted.1, credentialLast4 := some encrypted.2 }
  | _ => .ok c

/-- The label, the prices and the models of the body. -/
def assign (body : ProviderConnectionUpdate) (c : Connection κ) : Connection κ :=
  { c with
    label := match body.label with
      | .unset => c.label
      | .null => none
      | .value label => some label.1
    modelPricing := match body.modelPricing with
      | .value entries => entries
      | _ => c.modelPricing
    modelIds := match body.models with
      | .value ids => ids.1
      | _ => c.modelIds }

/-- `update_provider_connection` -/
def updateProviderConnection (env : Env κ) (db : Db κ) (id : ConnectionId)
    (body : ProviderConnectionUpdate) : Except Failure (Db κ) :=
  match db.get id with
  | none => .error (.http notFound)
  | some row => do
    let ids ← readModelIds body.models row.1.modelIds
    checkPricing body.modelPricing ids
    let c ← replaceKey env body.apiKey row.1
    if body = .empty then .ok db else save db id (assign body c)

/-! ## The other routes -/

theorem fits_enabled {c : Connection κ} (h : c.fits = true) (enabled : Bool) :
    Connection.fits { c with enabled := enabled } = true := h

/-- `activate_provider_connection` and `disable_provider_connection` -/
def setEnabled (db : Db κ) (id : ConnectionId) (enabled : Bool) : Except Failure (Db κ) :=
  match db.get id with
  | none => .error (.http notFound)
  | some row => .ok (db.set id ⟨{ row.1 with enabled := enabled }, fits_enabled row.2 enabled⟩)

/-- `delete_provider_connection`; no other table refers to the row. -/
def deleteProviderConnection (db : Db κ) (id : ConnectionId) : Except Failure (Db κ) :=
  match db.get id with
  | none => .error (.http notFound)
  | some _ => .ok (db.erase id)

inductive Request
  | create (id : ConnectionId) (body : ProviderConnectionCreate)
  | update (id : ConnectionId) (body : ProviderConnectionUpdate)
  | activate (id : ConnectionId)
  | disable (id : ConnectionId)
  | delete (id : ConnectionId)

def handle (env : Env κ) (db : Db κ) : Request → Except Failure (Db κ)
  | .create id body => createProviderConnection env db id body
  | .update id body => updateProviderConnection env db id body
  | .activate id => setEnabled db id true
  | .disable id => setEnabled db id false
  | .delete id => deleteProviderConnection db id

/-- One request. A key is drawn that no row has; a request that fails is rolled back. -/
def step (env : Env κ) (db : Db κ) (request : Request) : Option (Db κ) :=
  match request, handle env db request with
  | .create id _, .ok after => if (db.get id).isSome then none else some after
  | _, .ok after => some after
  | _, .error _ => some db

end MegaPanel.AiProviders

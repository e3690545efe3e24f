import MegaPanel.LeadDelivery.Model
import MegaPanel.Lib.Dict
import MegaPanel.Lib.Text
import MegaPanel.Lib.Url

set_option autoImplicit false

/-! # Lead routing policies as they are submitted

The body of a request that creates a routing policy (`schemas/lead_routing.py`) and the destination
rows that the request makes of it (`api/v1/lead_routing.py`). What the validation gives is kept in
the type of the rows (`Destinations`): there is at least one, their keys are different and none is
the key of the central delivery, and each has the target that its channel needs.

`str.lower`, the checks of network locations and of addresses, and the encryption are parameters. An
address has been checked as `EmailStr` before; the other constraints of the fields are here.
-/

namespace MegaPanel.LeadRouting

open MegaPanel.Lib MegaPanel.Lib.Text MegaPanel.Lib.Url
open MegaPanel.LeadDelivery (Channel DeliveryMode)

/-- The functions of the environment. What is encrypted is not empty, because it has a nonce. -/
structure Env where
  lower : String → String
  netlocValid : List Char → Bool
  /-- `ipaddress.ip_address` does not raise. -/
  isIpAddress : List Char → Bool
  encrypt : String → String
  encrypt_ne : ∀ text, encrypt text ≠ ""

/-! ## The body of the request -/

/-- `LeadRoutingDestinationIn` -/
structure DestinationIn where
  targetKey : String
  channel : Channel
  required : Bool
  recipient : Option String
  webhookUrl : Option String
  webhookSecret : Option String
  deriving DecidableEq

/-- `LeadRoutingPolicyCreate` -/
structure PolicyIn where
  destinations : List DestinationIn
  deliveryMode : DeliveryMode
  replaceGlobalConfirmed : Bool
  deriving DecidableEq

/-- `_RESERVED_TARGET_KEYS` -/
def reservedTargetKey : String := "global_smtp_default"

/-- `[a-z][a-z0-9_-]{0,63}` -/
def isTargetKey (key : String) : Bool :=
  match key.toList with
  | [] => false
  | c :: cs => ('a' ≤ c && c ≤ 'z') && decide (cs.length ≤ 63)
      && cs.all (fun c => ('a' ≤ c && c ≤ 'z') || isAsciiDigit c || c == '_' || c == '-')

/-- `validate_target_key` -/
def validateTargetKey (env : Env) (value : String) : Except String String :=
  let normalized := env.lower (strip value)
  if !isTargetKey normalized then
    .error "Target key must use lowercase letters, digits, hyphens and underscores"
  else if normalized = reservedTargetKey then
    .error "Target key is reserved for server delivery"
  else .ok normalized

/-- The bounds of `Field(min_length=…, max_length=…)`. -/
def lengthWithin (lo hi : Nat) (text : String) : Bool :=
  decide (lo ≤ text.length) && decide (text.length ≤ hi)

/-- `validate_channel_fields` -/
def validateChannelFields (d : DestinationIn) : Except String Unit :=
  match d.channel with
  | .email =>
    if d.recipient.getD "" = "" ∨ d.webhookUrl.getD "" ≠ "" ∨ d.webhookSecret.getD "" ≠ "" then
      .error "Email destinations require only a recipient"
    else .ok ()
  | .webhook =>
    if d.webhookUrl.getD "" = "" ∨ d.webhookSecret.getD "" = "" ∨ d.recipient.getD "" ≠ "" then
      .error "Webhook destinations require only a URL and secret"
    else .ok ()

/-- The validation of one destination. -/
def validateDestination (env : Env) (d : DestinationIn) : Except String DestinationIn :=
  if !(lengthWithin 1 64 d.targetKey && d.webhookUrl.all (lengthWithin 8 2048)
      && d.webhookSecret.all (lengthWithin 16 512)) then
    .error "String should have a length within the bounds of its field"
  else
    match validateTargetKey env d.targetKey with
    | .error message => .error message
    | .ok key =>
      match validateChannelFields { d with targetKey := key } with
      | .error message => .error message
      | .ok _ => .ok { d with targetKey := key }

/-- `validate_policy`, with the validation of the destinations before it. -/
def validatePolicy (env : Env) (body : PolicyIn) : Except String (List DestinationIn) :=
  if body.destinations = [] ∨ 10 < body.destinations.length then
    .error "List should have between 1 and 10 items"
  else
    match body.destinations.mapM (validateDestination env) with
    | .error message => .error message
    | .ok destinations =>
      if ¬ (destinations.map (·.targetKey)).Nodup then
        .error "Routing destination keys must be unique"
      else if body.deliveryMode = .replaceGlobal ∧ body.replaceGlobalConfirmed = false then
        .error "Explicit confirmation is required to replace central delivery"
      else .ok destinations

/-! ## The rows -/

variable {env : Env} {d : DestinationIn} {body : PolicyIn} {ds : List DestinationIn}

/-- `LeadRoutingDestination` -/
structure Destination where
  targetKey : String
  channel : Channel
  required : Bool
  targetUrl : Option String
  targetRecipientEnc : Option String
  targetSecretEnc : Option String
  deriving DecidableEq

/-- The target that the channel needs is there. -/
def Destination.isConfigured (d : Destination) : Bool :=
  match d.channel with
  | .webhook => decide (d.targetUrl.getD "" ≠ "") && decide (d.targetSecretEnc.getD "" ≠ "")
  | .email => decide (d.targetRecipientEnc.getD "" ≠ "")

/-- `validate_webhook_target` -/
def validateWebhookTarget (env : Env) (raw : String) : Except String String :=
  let target := strip raw
  if target.toList.any (fun c => decide (c.toNat < 32)) then .error "Webhook URL is invalid"
  else
    match urlsplit env.netlocValid target.toList with
    | none => .error "Webhook URL is invalid"
    | some parsed =>
      match parsed.port with
      | none => .error "Webhook URL is invalid"
      | some port =>
        let host := (parsed.hostname (fun cs => (env.lower (String.ofList cs)).toList)).getD []
        if parsed.scheme ≠ "https".toList ∨ host = [] ∨ parsed.username.getD [] ≠ []
            ∨ parsed.password.getD [] ≠ [] ∨ (port ≠ none ∧ port ≠ some 443) then
          .error "Webhook URL must use public HTTPS without credentials"
        else if env.isIpAddress host = true ∨ '.' ∉ host then
          .error "Webhook URL must use a public domain"
        else .ok target

/-- The row for a destination of the body. -/
def buildDestination (env : Env) (d : DestinationIn) : Except HttpError Destination :=
  match d.channel with
  | .webhook =>
    match validateWebhookTarget env (d.webhookUrl.getD "") with
    | .error message => .error ⟨422, message⟩
    | .ok url =>
      .ok ⟨d.targetKey, .webhook, d.required, some url, none,
        some (env.encrypt (d.webhookSecret.getD ""))⟩
  | .email =>
    .ok ⟨d.targetKey, .email, d.required, none,
      some (env.encrypt (d.recipient.getD "None")), none⟩

/-- The rows that the request makes of its body. -/
def policyRows (env : Env) (body : PolicyIn) : Except HttpError (List Destination) :=
  match validatePolicy env body with
  | .error message => .error ⟨422, message⟩
  | .ok destinations => destinations.mapM (buildDestination env)

theorem validateTargetKey_ne_reserved {value key : String}
    (h : validateTargetKey env value = .ok key) : key ≠ reservedTargetKey := by
  rw [validateTargetKey] at h
  split_ifs at h with _ hne
  cases h
  exact hne

theorem validateDestination_ne_reserved {d' : DestinationIn}
    (h : validateDestination env d = .ok d') : d'.targetKey ≠ reservedTargetKey := by
  rw [validateDestination] at h
  split at h
  · cases h
  split at h
  · cases h
  · next key hkey =>
    split at h
    · cases h
    · cases h
      exact validateTargetKey_ne_reserved hkey

theorem validateWebhookTarget_ne {raw target : String}
    (h : validateWebhookTarget env raw = .ok target) : target ≠ "" := by
  rintro rfl
  simp only [validateWebhookTarget] at h
  split at h
  · cases h
  split at h
  · cases h
  · next parsed hparsed =>
    split at h
    · cases h
    split at h
    · cases h
    · next hok =>
      split at h
      · cases h
      have htarget : strip raw = "" := Except.ok.inj h
      rw [htarget, urlsplit] at hparsed
      split at hparsed
      · cases hparsed
        exact hok (.inl (by decide))
      · cases hparsed

theorem buildDestination_spec {row : Destination} (h : buildDestination env d = .ok row) :
    row.targetKey = d.targetKey ∧ row.isConfigured = true := by
  rw [buildDestination] at h
  split at h
  · split at h
    · cases h
    · next url hurl =>
      cases h
      have hne := validateWebhookTarget_ne hurl
      have hsecret := env.encrypt_ne (d.webhookSecret.getD "")
      simp [Destination.isConfigured, hne, hsecret]
  · cases h
    have hrecipient := env.encrypt_ne (d.recipient.getD "None")
    simp [Destination.isConfigured, hrecipient]

/-- The destinations of a policy. -/
structure Destinations where
  rows : List Destination
  nonempty : rows ≠ []
  keys_nodup : (rows.map (·.targetKey)).Nodup
  not_reserved : reservedTargetKey ∉ rows.map (·.targetKey)
  configured : ∀ d ∈ rows, d.isConfigured = true
  deriving DecidableEq

theorem validatePolicy_spec (h : validatePolicy env body = .ok ds) :
    ds ≠ [] ∧ (ds.map (·.targetKey)).Nodup ∧ ∀ d ∈ ds, d.targetKey ≠ reservedTargetKey := by
  rw [validatePolicy] at h
  split at h
  · cases h
  · next hlength =>
    split at h
    · cases h
    · next destinations hmap =>
      split at h
      · cases h
      · next hnodup =>
        split at h
        · cases h
        cases h
        refine ⟨fun hnil => ?_, not_not.mp hnodup, fun d hd => ?_⟩
        · have hall := mapM_forall₂ hmap
          rw [hnil, List.forall₂_nil_right_iff] at hall
          exact hlength (.inl hall)
        · obtain ⟨d₀, _, hvalid⟩ := mapM_mem hmap hd
          exact validateDestination_ne_reserved hvalid

theorem buildDestination_keys {rows : List Destination}
    (h : ds.mapM (buildDestination env) = .ok rows) :
    rows.map (·.targetKey) = ds.map (·.targetKey) := by
  have hall := mapM_forall₂ h
  clear h
  induction hall with
  | nil => rfl
  | cons hrow _ ih => rw [List.map_cons, List.map_cons, ih, (buildDestination_spec hrow).1]

/-- What the rows of an accepted body have. -/
theorem policyRows_spec {rows : List Destination} (h : policyRows env body = .ok rows) :
    rows ≠ [] ∧ (rows.map (·.targetKey)).Nodup ∧ reservedTargetKey ∉ rows.map (·.targetKey)
      ∧ ∀ d ∈ rows, d.isConfigured = true := by
  rw [policyRows] at h
  split at h
  · cases h
  · next ds hvalid =>
    obtain ⟨hne, hnodup, hreserved⟩ := validatePolicy_spec hvalid
    have hkeys := buildDestination_keys h
    refine ⟨?_, hkeys ▸ hnodup, ?_, fun d hd => ?_⟩
    · rintro rfl
      exact hne (List.map_eq_nil_iff.mp hkeys.symm)
    · rw [hkeys]
      intro hmem
      obtain ⟨d, hd, hkey⟩ := List.mem_map.mp hmem
      exact hreserved d hd hkey
    · obtain ⟨d₀, _, hrow⟩ := mapM_mem h hd
      exact (buildDestination_spec hrow).2

/-- The destinations of a new policy. -/
def policyDestinations (env : Env) (body : PolicyIn) : Except HttpError Destinations :=
  match h : policyRows env body with
  | .error e => .error e
  | .ok rows =>
    let hspec := policyRows_spec h
    .ok ⟨rows, hspec.1, hspec.2.1, hspec.2.2.1, hspec.2.2.2⟩

end MegaPanel.LeadRouting

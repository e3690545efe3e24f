import MegaPanel.LeadIntake.Model
import MegaPanel.Lib.Hmac
import MegaPanel.Lib.Records
import MegaPanel.Lib.Run
import MegaPanel.Rendering.Templates

set_option autoImplicit false

/-! # Requests of data subjects

`process_dsar_job` (`services/dsar.py`) looks for the leads of a person by an email address, a phone
number or both, and exports or erases them. Names, numbers and messages are stored encrypted; a phone
number is found by its blind index, a keyed digest of the text that the form has sent
(`BlindIndex.index`).

The keys are those of the settings throughout, and decryption gives back what was encrypted. Each
request is one transaction, and none overlaps with another. The file of an export is the list of its
rows. `str.lower` is a parameter.
-/

namespace MegaPanel.Dsar

open MegaPanel.Lib MegaPanel.Lib.Text
open MegaPanel.LeadDelivery (LeadId)
open MegaPanel.LeadIntake (IntakeEnv LeadStatus PublicLeadIn newLead)
open MegaPanel.LeadRouting (Site)
open MegaPanel.Rendering (normalizePhoneE164)

/-! ## Keys -/

structure Env extends LeadRouting.Env where
  /-- `blind_index_pepper` -/
  pepper : String
  /-- `FieldEncryptor.decrypt`; `none` stands for an exception. -/
  decrypt : String → Option String
  decrypt_encrypt : ∀ text, decrypt (encrypt text) = some text

variable (env : Env)

/-- `value.strip().lower()` -/
def blindNormal (value : String) : String := env.lower (strip value)

/-- `BlindIndex.index` -/
def blindIndex (value : String) : String :=
  Hmac.hmacHex (utf8 env.pepper) (utf8 (blindNormal env value))

/-! ## Rows -/

inductive Status
  /-- What the form or the operator has set. -/
  | lead (status : LeadStatus)
  | sent
  | failed
  | erased
  deriving DecidableEq

/-- `leads`; `erasedAt` is in `meta`. -/
structure Lead where
  tenantId : TenantId
  siteId : SiteId
  pageSlug : Option String
  status : Status
  phoneEnc : Option String
  phoneBlind : Option String
  emailEnc : Option String
  nameEnc : Option String
  messageEnc : Option String
  idempotencyKey : String
  erasedAt : Option Time
  deriving DecidableEq

/-- `consents` -/
structure Consent where
  tenantId : TenantId
  visitorId : String
  revokedAt : Option Time
  deriving DecidableEq

abbrev ConsentId := Nat

structure Db where
  leads : Table LeadId Lead
  consents : Table ConsentId Consent

def intakeEnv : IntakeEnv := { env.toEnv with blindIndex := blindIndex env }

/-- The row that `create_public_lead` inserts. -/
def storedLead (site : Site) (body : PublicLeadIn) (ip : String) : Lead :=
  let lead := newLead (intakeEnv env) site body ip
  { tenantId := lead.tenantId
    siteId := lead.siteId
    pageSlug := lead.pageSlug
    status := .lead lead.status
    phoneEnc := some lead.phoneEnc
    phoneBlind := some lead.phoneBlind
    emailEnc := lead.emailEnc
    nameEnc := lead.nameEnc
    messageEnc := lead.messageEnc
    idempotencyKey := lead.idempotencyKey
    erasedAt := none }

/-! ## The search -/

/-- Who asks. -/
structure Subject where
  tenantId : TenantId
  email : Option String
  phone : Option String

/-- A text that Python takes as true. -/
def given (text : Option String) : Option String := text.filter (· ≠ "")

def phoneIndex (subject : Subject) : Option String := (given subject.phone).map (blindIndex env)

def emailMatches (subject : Subject) (lead : Lead) : Bool :=
  match given subject.email, given lead.emailEnc with
  | some email, some token =>
    (env.decrypt token).any (fun text => decide (env.lower text = env.lower email))
  | _, _ => false

/-- `_matches_subject` -/
def matchesSubject (subject : Subject) (lead : Lead) : Bool :=
  emailMatches env subject lead ||
    (phoneIndex env subject).any (fun index => decide (lead.phoneBlind = some index))

/-- The `WHERE` of the query. -/
def selected (subject : Subject) (lead : Lead) : Bool :=
  decide (lead.tenantId = subject.tenantId) &&
    ((phoneIndex env subject).isNone || (given subject.email).isSome ||
      decide (lead.phoneBlind = phoneIndex env subject))

/-- The leads of a subject; every row has an id of its own. -/
def search (db : Db) (subject : Subject) : List (LeadId × Lead) :=
  (db.leads.rows.filter (fun r => selected env subject r.2)).filter (fun r =>
    matchesSubject env subject r.2)

/-- `blind.index(lead.idempotency_key or str(lead.id))` -/
def visitorId (r : LeadId × Lead) : String :=
  blindIndex env (if r.2.idempotencyKey = "" then toString r.1 else r.2.idempotencyKey)

/-- The active consents that go with the leads. -/
def activeConsents (db : Db) (subject : Subject) (leads : List (LeadId × Lead)) :
    List (ConsentId × Consent) :=
  db.consents.rows.filter (fun c =>
    decide (c.2.tenantId = subject.tenantId) && (leads.map (visitorId env)).contains c.2.visitorId
      && c.2.revokedAt.isNone)

/-! ## The two actions -/

structure ExportRow where
  id : LeadId
  siteId : SiteId
  pageSlug : Option String
  status : Status
  phone : Option String
  email : Option String
  name : Option String
  message : Option String
  deriving DecidableEq

/-- `enc.decrypt(field) if field else None` -/
def decryptField (field : Option String) : Except Unit (Option String) :=
  match given field with
  | none => .ok none
  | some token =>
    match env.decrypt token with
    | none => .error ()
    | some text => .ok (some text)

def exportRow (r : LeadId × Lead) : Except Unit ExportRow :=
  match decryptField env r.2.phoneEnc, decryptField env r.2.emailEnc,
    decryptField env r.2.nameEnc, decryptField env r.2.messageEnc with
  | .ok phone, .ok email, .ok name, .ok message =>
    .ok ⟨r.1, r.2.siteId, r.2.pageSlug, r.2.status, phone, email, name, message⟩
  | _, _, _, _ => .error ()

/-- `process_dsar_job` with the action `export`: the rows, and the number of active consents. -/
def exportSubject (db : Db) (subject : Subject) : Except Unit (List ExportRow × Nat) :=
  let leads := search env db subject
  ((leads.mapM (exportRow env)).map (fun rows =>
    (rows, (activeConsents env db subject leads).length)))

def Lead.erase (lead : Lead) (now : Time) : Lead := { lead with
  phoneEnc := none
  emailEnc := none
  nameEnc := none
  messageEnc := none
  phoneBlind := none
  status := .erased
  erasedAt := some now }

/-- `process_dsar_job` with the action `delete` -/
def deleteSubject (db : Db) (subject : Subject) (now : Time) : Db :=
  let leads := search env db subject
  { leads := leads.foldl (fun table r => table.set r.1 (r.2.erase now)) db.leads
    consents := (activeConsents env db subject leads).foldl (fun table c =>
      table.set c.1 { c.2 with revokedAt := some now }) db.consents }

/-! ## Requests -/

inductive Action
  /-- The form of a site has stored a lead, with its consent. -/
  | submit (id : LeadId) (consentId : ConsentId) (site : Site) (body : PublicLeadIn) (ip : String)
  /-- An operator sets a status. -/
  | setStatus (id : LeadId) (status : Status)
  | export (subject : Subject)
  | delete (subject : Subject) (now : Time)

def step (db : Db) : Action → Option Db
  | .submit id consentId site body ip =>
    let lead := storedLead env site body ip
    if db.leads.get id = none ∧ db.consents.get consentId = none ∧
        ∀ r ∈ db.leads.rows, (r.2.tenantId, r.2.siteId, r.2.idempotencyKey) ≠
          (lead.tenantId, lead.siteId, lead.idempotencyKey) then
      some
        { leads := db.leads.set id lead
          consents := db.consents.set consentId
            ⟨lead.tenantId, blindIndex env lead.idempotencyKey, none⟩ }
    else none
  | .setStatus id status =>
    if status = .erased then none
    else
      (db.leads.get id).map (fun lead =>
        { db with leads := db.leads.set id { lead with status := status } })
  | .export subject => (exportSubject env db subject).toOption.map (fun _ => db)
  | .delete subject now => some (deleteSubject env db subject now)

def start : Db := ⟨.empty, .empty⟩

end MegaPanel.Dsar

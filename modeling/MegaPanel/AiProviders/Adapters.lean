import MegaPanel.Egress.Guard

set_option autoImplicit false

/-! # The adapters of AI providers

`generate_structured` of `OpenAICompatibleAdapter` and of `AnthropicAdapter`: a request is checked
and sent, the body of the response is read within a limit, and its JSON is searched for the answer
and the token counts. Every exception that Python raises on the way is an outcome of its own here,
so that it shows which ones the `except` clauses name.

A text is the list of its code points, since the strings of a JSON document may hold lone
surrogates. `json`, `int` of a text and the depth the interpreter's stack allows are given by
`Interpreter`; what the upstream sends, or which exception of `httpx` ends the exchange, is the
`Exchange`. The payload of the request and the messages of the errors are left out.
-/

namespace MegaPanel.AiProviders

open MegaPanel.Lib MegaPanel.Egress

/-! ## Values of Python -/

abbrev PyStr := List Nat

/-- A literal. -/
def py (text : String) : PyStr := text.toList.map Char.toNat

inductive PyFloat
  | finite (q : ℚ)
  | infinite (negative : Bool)
  | nan

/-- What `json.loads` returns; a dictionary is the list of its entries. -/
inductive Value
  | null
  | bool (b : Bool)
  | int (n : Int)
  | float (x : PyFloat)
  | str (text : PyStr)
  | list (items : List Value)
  | dict (entries : List (PyStr × Value))

abbrev Entries := List (PyStr × Value)

/-- `entries.get(key)`, `None` being `null`. -/
def Entries.get (entries : Entries) (key : String) : Value :=
  ((entries.find? (fun e => e.1 = py key)).map (·.2)).getD .null

/-- `key in entries` -/
def Entries.has (entries : Entries) (key : String) : Bool := entries.any (fun e => e.1 = py key)

/-- `bool(value)` -/
def Value.truthy : Value → Bool
  | .null => false
  | .bool b => b
  | .int n => decide (n ≠ 0)
  | .float (.finite q) => decide (q ≠ 0)
  | .float _ => true
  | .str text => !text.isEmpty
  | .list items => !items.isEmpty
  | .dict entries => !entries.isEmpty

/-- `value or other` -/
def Value.or (value other : Value) : Value := if value.truthy then value else other

/-! ## Exceptions -/

structure Usage where
  inputTokens : Int
  outputTokens : Int
  reported : Bool
  deriving DecidableEq

/-- `Usage()` -/
def Usage.none : Usage := ⟨0, 0, false⟩

/-- `ProviderError`, without its message. -/
structure ProviderError where
  code : String
  retryable : Bool
  usage : Option Usage
  requestId : Option Value

/-- What `httpx` raises. -/
inductive ClientError
  /-- `TimeoutException` -/
  | timeout
  /-- Another `HTTPError` -/
  | httpError
  /-- An exception that is no `HTTPError`, such as `InvalidURL` -/
  | other
  deriving DecidableEq

inductive PyError
  | provider (e : ProviderError)
  | client (e : ClientError)
  | keyError
  | indexError
  | typeError
  | valueError
  | attributeError
  | overflowError
  | recursionError

/-- `raise ProviderError(code, …)` -/
def providerError {α : Type} (code : String) (retryable : Bool := false) : Except PyError α :=
  .error (.provider ⟨code, retryable, none, none⟩)

/-- How `json` fails. -/
inductive JsonError
  /-- `ValueError` or `TypeError` -/
  | invalid
  | recursionError
  deriving DecidableEq

structure Interpreter where
  /-- `json.loads` of bytes and of a text -/
  loadsBytes : List UInt8 → Except JsonError Value
  loadsText : PyStr → Except JsonError Value
  /-- `json.dumps(value, ensure_ascii=False, separators=(",", ":"), allow_nan=False)` -/
  dumps : Value → Except JsonError PyStr
  /-- `int(text)`; `none` is a `ValueError`. -/
  intText : PyStr → Option Int
  /-- A recursive function over the value exhausts the stack. -/
  tooDeep : Value → Bool

/-- An error of `json` as an exception. -/
def JsonError.raised : JsonError → PyError
  | .invalid => .valueError
  | .recursionError => .recursionError

/-! ## The request -/

inductive StructuredOutputMode
  | jsonObject
  | jsonSchema
  | native
  | unsupported
  deriving DecidableEq

structure ProviderCapabilities where
  structuredOutput : Bool
  structuredOutputMode : StructuredOutputMode

structure ProviderModel where
  modelId : PyStr
  capabilities : ProviderCapabilities

/-- `StructuredRequest`: what decides the answer. -/
structure StructuredRequest where
  model : PyStr
  outputSchema : Entries

mutual

/-- `depth` of `normalize_output_schema` -/
def depth (level : Nat) : Value → Nat
  | .dict entries => if entries.isEmpty then level else depthEntries level entries
  | .list items => if items.isEmpty then level else depthItems level items
  | _ => level

/-- The greatest depth of the items, one level down. -/
def depthItems (level : Nat) : List Value → Nat
  | [] => 0
  | item :: items => max (depth (level + 1) item) (depthItems level items)

def depthEntries (level : Nat) : List (PyStr × Value) → Nat
  | [] => 0
  | (_, value) :: entries => max (depth (level + 1) value) (depthEntries level entries)

end

/-- Bytes of a code point in UTF-8. -/
def utf8Size (c : Nat) : Nat :=
  if c < 0x80 then 1 else if c < 0x800 then 2 else if c < 0x10000 then 3 else 4

/-- `len(text.encode("utf-8"))`; surrogates raise a `UnicodeEncodeError`. -/
def encodedLength (text : PyStr) : Option Nat :=
  if text.any (fun c => 0xd800 ≤ c && c ≤ 0xdfff) then none else some ((text.map utf8Size).sum)

def maxOutputSchemaBytes : Nat := 64 * 1024
def maxOutputSchemaDepth : Nat := 12

/-- `normalize_output_schema` -/
def normalizeOutputSchema (interp : Interpreter) (schema : Entries) : Except PyError Value :=
  match interp.dumps (.dict schema) with
  | .error e => .error e.raised
  | .ok encoded =>
    match interp.loadsText encoded with
    | .error e => .error e.raised
    | .ok normalized =>
      match encodedLength encoded with
      | none => .error .valueError
      | some size =>
        if size > maxOutputSchemaBytes then .error .valueError
        else if interp.tooDeep normalized then .error .recursionError
        else if depth 1 normalized > maxOutputSchemaDepth then .error .valueError
        else
          match normalized with
          | .dict _ => .ok normalized
          | _ => .error .valueError

/-- The checks that both adapters make before they send anything. -/
def checkRequest (interp : Interpreter) (capabilities : ProviderCapabilities)
    (request : StructuredRequest) : Except PyError Unit :=
  if capabilities.structuredOutput = false ∨
      capabilities.structuredOutputMode = .unsupported then
    providerError "unsupported_capability"
  else
    match normalizeOutputSchema interp request.outputSchema with
    | .ok _ => .ok ()
    | .error .valueError => providerError "invalid_output_schema"
    | .error e => .error e

/-- What the egress policy is asked with. -/
structure Network where
  guard : EgressGuard
  library : Ssrf.Library
  /-- `getaddrinfo` -/
  dns : Option (List IpAddress)

/-- A refusal of the guard as an exception. -/
def refused : Except Refusal Unit → Except PyError Unit
  | .ok () => .ok ()
  | .error (.permission _) => providerError "egress_blocked"
  | .error .valueError => .error .valueError

/-! ## The response -/

structure Response where
  statusCode : Nat
  /-- The header `content-length` -/
  contentLength : Option PyStr
  /-- The header with the request's id -/
  requestIdHeader : Option PyStr
  chunks : List (List UInt8)
  /-- What `httpx` raises after the chunks -/
  broken : Option ClientError

inductive Exchange
  | raised (e : ClientError)
  | response (r : Response)

def maxResponseBytes : Nat := 1048576

/-- `response.aiter_bytes()` read into `body`: the chunks read, and the body. -/
def readBody (broken : Option ClientError) :
    List UInt8 → List (List UInt8) → List (List UInt8) × Except PyError (List UInt8)
  | body, [] =>
    ([], match broken with
      | some e => .error (.client e)
      | none => .ok body)
  | body, chunk :: chunks =>
    if (body ++ chunk).length > maxResponseBytes then
      ([chunk], providerError "response_too_large")
    else
      let rest := readBody broken (body ++ chunk) chunks
      (chunk :: rest.1, rest.2)

/-- `int(response.headers.get("content-length", "0"))` and its limit. -/
def checkContentLength (interp : Interpreter) (r : Response) : Except PyError Unit :=
  match interp.intText (r.contentLength.getD (py "0")) with
  | none => providerError "invalid_response"
  | some length =>
    if length > maxResponseBytes then providerError "response_too_large" else .ok ()

/-- The checks of the status. -/
def checkStatus (r : Response) : Except PyError Unit :=
  if r.statusCode ∈ [408, 409, 425, 429] ∨ r.statusCode ≥ 500 then
    providerError "upstream_retryable" true
  else if r.statusCode ∈ [401, 403] then providerError "unauthorized"
  else if r.statusCode ≥ 400 then providerError "upstream_error"
  else .ok ()

/-- The `except` clauses around the exchange. -/
def nameClientError {α : Type} : Except PyError α → Except PyError α
  | .error (.client .timeout) => providerError "timeout" true
  | .error (.client .httpError) => providerError "network_error" true
  | result => result

/-- What an adapter has read, and how it ends. -/
structure Outcome (α : Type) where
  read : List (List UInt8)
  result : Except PyError α

/-- `json.loads(body)` -/
def decodeBody (interp : Interpreter) (body : List UInt8) : Except PyError Value :=
  match interp.loadsBytes body with
  | .ok value => .ok value
  | .error .invalid => providerError "invalid_response"
  | .error .recursionError => .error .recursionError

/-! ## Token counts -/

/-- `int(value)` -/
def Value.toInt (interp : Interpreter) : Value → Except PyError Int
  | .null => .error .typeError
  | .bool b => .ok (if b then 1 else 0)
  | .int n => .ok n
  | .float (.finite q) => .ok (q.num.tdiv q.den)
  | .float (.infinite _) => .error .overflowError
  | .float .nan => .error .valueError
  | .str text =>
    match interp.intText text with
    | some n => .ok n
    | none => .error .valueError
  | .list _ => .error .typeError
  | .dict _ => .error .typeError

/-- The first of the entries that is true, else `0`. -/
def firstCount (usage : Entries) : List String → Value
  | [] => .int 0
  | key :: keys => (usage.get key).or (firstCount usage keys)

/-- `_usage`, with the keys under which an adapter looks for the counts. -/
def usageOf (interp : Interpreter) (inputKeys outputKeys : List String) (data : Entries) :
    Except PyError Usage :=
  match data.get "usage" with
  | .dict usage =>
    let counts : Except PyError Usage := do
      let input ← (firstCount usage inputKeys).toInt interp
      let output ← (firstCount usage outputKeys).toInt interp
      .ok ⟨input, output, true⟩
    match counts with
    | .error .typeError => .ok Usage.none
    | .error .valueError => .ok Usage.none
    | result => result
  | _ => .ok Usage.none

/-! ## The answer -/

structure StructuredResponse where
  model : PyStr
  data : Entries
  usage : Usage
  requestId : Option Value

/-- `raise ProviderError("invalid_structured_output", …)` -/
def invalidOutput {α : Type} (usage : Usage) (requestId : Option Value) : Except PyError α :=
  .error (.provider ⟨"invalid_structured_output", false, some usage, requestId⟩)

/-- `value[key]` -/
def Value.item (key : String) : Value → Except PyError Value
  | .dict entries =>
    if Entries.has entries key then .ok (Entries.get entries key) else .error .keyError
  | _ => .error .typeError

/-- `value[0]` -/
def Value.first : Value → Except PyError Value
  | .list [] => .error .indexError
  | .list (item :: _) => .ok item
  | .str [] => .error .indexError
  | .str (c :: _) => .ok (.str [c])
  | .dict _ => .error .keyError
  | _ => .error .typeError

/-- `data["choices"][0]["message"]["content"]`, which has to be a text. -/
def contentOf (data : Entries) : Except PyError PyStr := do
  let choices ← (Value.dict data).item "choices"
  let choice ← choices.first
  let message ← choice.item "message"
  let content ← message.item "content"
  match content with
  | .str text => .ok text
  | _ => .error .typeError

/-- What an iteration over the value yields. -/
def Value.iterate : Value → Except PyError (List Value)
  | .list items => .ok items
  | .dict entries => .ok (entries.map (fun e => .str e.1))
  | .str text => .ok (text.map (fun c => .str [c]))
  | _ => .error .typeError

/-- `item.get("text", "")` of an item with the type `text`. -/
def textPart (item : Entries) : Option Value :=
  match item.get "type" with
  | .str kind =>
    if kind = py "text" then some (if item.has "text" then item.get "text" else .str [])
    else none
  | _ => none

/-- The entries of the items; `get` is an attribute of dictionaries only. -/
def asDicts : List Value → Except PyError (List Entries)
  | [] => .ok []
  | .dict entries :: items => do
    let rest ← asDicts items
    .ok (entries :: rest)
  | _ :: _ => .error .attributeError

/-- `"".join(parts)` -/
def joinParts : List Value → Except PyError PyStr
  | [] => .ok []
  | .str text :: parts => do
    let rest ← joinParts parts
    .ok (text ++ rest)
  | _ :: _ => .error .typeError

/-- The text that `AnthropicAdapter` joins; `join` runs the generator to its end before it looks
at the parts. -/
def textOf (data : Entries) : Except PyError PyStr := do
  let items ← (if data.has "content" then data.get "content" else .list []).iterate
  let dicts ← asDicts items
  joinParts (dicts.filterMap textPart)

/-- The end of both adapters: the text is decoded, and has to be an object. An `IndexError`, which
`AnthropicAdapter` does not name, cannot come from its text. -/
def answerOf (interp : Interpreter) (model : PyStr) (usage : Usage) (requestId : Option Value)
    (text : Except PyError PyStr) : Except PyError StructuredResponse :=
  match text >>= fun t => match interp.loadsText t with
    | .ok value => .ok value
    | .error e => .error e.raised with
  | .ok (.dict data) => .ok ⟨model, data, usage, requestId⟩
  | .ok _ => invalidOutput usage requestId
  | .error .keyError => invalidOutput usage requestId
  | .error .indexError => invalidOutput usage requestId
  | .error .typeError => invalidOutput usage requestId
  | .error .valueError => invalidOutput usage requestId
  | .error e => .error e

/-! ## The adapters

`generate_structured` of both adapters checks the request, asks the egress policy, lets `read`
take the response apart and makes the `answer` of it. -/

def generate {α : Type} (interp : Interpreter) (capabilities : ProviderCapabilities)
    (egress : Except Refusal Unit) (read : Response → Outcome α)
    (answer : Response → α → Except PyError StructuredResponse) (request : StructuredRequest)
    (exchange : Exchange) : Outcome StructuredResponse :=
  match checkRequest interp capabilities request with
  | .error e => ⟨[], .error e⟩
  | .ok () =>
    match refused egress with
    | .error e => ⟨[], .error e⟩
    | .ok () =>
      match exchange with
      | .raised e => ⟨[], nameClientError (.error (.client e))⟩
      | .response r => ⟨(read r).read, nameClientError (read r).result >>= answer r⟩

structure OpenAICompatibleAdapter where
  baseUrl : List Char
  defaultModels : List ProviderModel
  /-- `self._client is None` -/
  ownClient : Bool

/-- `model_capabilities` -/
def OpenAICompatibleAdapter.modelCapabilities (adapter : OpenAICompatibleAdapter) (model : PyStr) :
    ProviderCapabilities :=
  match adapter.defaultModels.find? (fun item => item.modelId = model) with
  | some item => item.capabilities
  | none => ⟨true, .jsonObject⟩

/-- The egress checks of `_request`. -/
def OpenAICompatibleAdapter.egress (adapter : OpenAICompatibleAdapter) (network : Network) :
    Except Refusal Unit :=
  match network.guard.assertAllowed network.library adapter.baseUrl with
  | .error refusal => .error refusal
  | .ok () =>
    if adapter.ownClient then assertPublicDns network.library adapter.baseUrl network.dns
    else .ok ()

/-- `_request` on a response: header, body, status and JSON, in this order. -/
def openaiRead (interp : Interpreter) (r : Response) : Outcome Entries :=
  match checkContentLength interp r with
  | .error e => ⟨[], .error e⟩
  | .ok () =>
    let body := readBody r.broken [] r.chunks
    ⟨body.1, do
      let bytes ← body.2
      checkStatus r
      let value ← decodeBody interp bytes
      match value with
      | .dict data => .ok data
      | _ => providerError "invalid_response"⟩

/-- `response.headers.get("x-request-id") or data.get("id")` -/
def openaiRequestId (r : Response) (data : Entries) : Option Value :=
  match r.requestIdHeader with
  | some text => if text.isEmpty then some (data.get "id") else some (.str text)
  | none => some (data.get "id")

/-- What `generate_structured` makes of the response. -/
def openaiAnswer (interp : Interpreter) (request : StructuredRequest) (r : Response)
    (data : Entries) : Except PyError StructuredResponse := do
  let usage ← usageOf interp ["prompt_tokens", "input_tokens"]
    ["completion_tokens", "output_tokens"] data
  answerOf interp request.model usage (openaiRequestId r data) (contentOf data)

/-- `OpenAICompatibleAdapter.generate_structured` -/
def OpenAICompatibleAdapter.generateStructured (adapter : OpenAICompatibleAdapter)
    (interp : Interpreter) (network : Network) (request : StructuredRequest)
    (exchange : Exchange) : Outcome StructuredResponse :=
  generate interp (adapter.modelCapabilities request.model) (adapter.egress network)
    (openaiRead interp) (openaiAnswer interp request) request exchange

/-- `model_capabilities` of `AnthropicAdapter`: every model is taken to speak JSON. -/
def anthropicCapabilities (_model : PyStr) : ProviderCapabilities := ⟨true, .jsonObject⟩

def anthropicUrl : List Char := "https://api.anthropic.com/v1/messages".toList

/-- The egress checks, made with any client. -/
def anthropicEgress (network : Network) : Except Refusal Unit :=
  match network.guard.assertAllowed network.library anthropicUrl with
  | .error refusal => .error refusal
  | .ok () => assertPublicDns network.library anthropicUrl network.dns

/-- The response: status, header, body and JSON, in this order; any JSON value is taken. -/
def anthropicRead (interp : Interpreter) (r : Response) : Outcome Value :=
  match checkStatus r with
  | .error e => ⟨[], .error e⟩
  | .ok () =>
    match checkContentLength interp r with
    | .error e => ⟨[], .error e⟩
    | .ok () =>
      let body := readBody r.broken [] r.chunks
      ⟨body.1, do
        let bytes ← body.2
        decodeBody interp bytes⟩

/-- `data.get` is an attribute of dictionaries only. -/
def anthropicAnswer (interp : Interpreter) (request : StructuredRequest) (r : Response) :
    Value → Except PyError StructuredResponse
  | .dict data => do
    let usage ← usageOf interp ["input_tokens"] ["output_tokens"] data
    answerOf interp request.model usage (r.requestIdHeader.map .str) (textOf data)
  | _ => .error .attributeError

/-- `AnthropicAdapter.generate_structured` -/
def anthropicGenerateStructured (interp : Interpreter) (network : Network)
    (request : StructuredRequest) (exchange : Exchange) : Outcome StructuredResponse :=
  generate interp (anthropicCapabilities request.model) (anthropicEgress network)
    (anthropicRead interp) (anthropicAnswer interp request) request exchange

end MegaPanel.AiProviders

import MegaPanel.AiProviders.Adapters
import MegaPanel.Lib.Settles

set_option autoImplicit false

/-! # What comes out of an adapter

A caller settles the budget of a run when an adapter returns or raises `ProviderError`. Each part
of an adapter has one lemma here that says when it ends so (`Settles`), and the condition of the
whole is read off their composition. What escapes: token counts that are infinite, nesting that
exhausts the stack, an exception of the client that is no `HTTPError`, and in `AnthropicAdapter`
a body or an item of its content that is no object; and a count may be negative.
-/

namespace MegaPanel.AiProviders

open MegaPanel.Lib MegaPanel.Egress

/-! ## The property -/

/-- The exception is a `ProviderError`. -/
def PyError.IsProvider : PyError → Prop
  | .provider _ => True
  | _ => False

/-- No token count is negative. -/
def Usage.NonNegative (u : Usage) : Prop := 0 ≤ u.inputTokens ∧ 0 ≤ u.outputTokens

/-- All chunks but the last one are within the limit. -/
def WithinLimit (read : List (List UInt8)) : Prop :=
  (read.dropLast.map List.length).sum ≤ maxResponseBytes

/-- The adapter returns an answer with counts that are not negative, or raises `ProviderError`,
and has read at most one chunk beyond the limit. -/
def Outcome.Sound (o : Outcome StructuredResponse) : Prop :=
  Settles PyError.IsProvider (fun r => r.usage.NonNegative) o.result ∧ WithinLimit o.read

/-! ## The condition -/

def ProviderCapabilities.Supported (c : ProviderCapabilities) : Prop :=
  c.structuredOutput ≠ false ∧ c.structuredOutputMode ≠ .unsupported

/-- The request passes the checks before it is sent. -/
def Checked (interp : Interpreter) (c : ProviderCapabilities) (request : StructuredRequest) :
    Prop :=
  c.Supported ∧ ∃ schema, normalizeOutputSchema interp request.outputSchema = .ok schema

/-- The condition up to the exchange: the stack suffices for the schema, and the guard can read the
endpoint; `exchange` is the condition on what follows. -/
def CleanUpTo (interp : Interpreter) (c : ProviderCapabilities) (request : StructuredRequest)
    (egress : Except Refusal Unit) (exchange : Prop) : Prop :=
  (c.Supported → normalizeOutputSchema interp request.outputSchema ≠ .error .recursionError) ∧
    (Checked interp c request → egress ≠ .error .valueError ∧ (egress = .ok () → exchange))

/-- Header and body are within the limit. -/
def Response.Whole (interp : Interpreter) (r : Response) : Prop :=
  (∃ n, interp.intText (r.contentLength.getD (py "0")) = some n ∧ n ≤ maxResponseBytes) ∧
    r.chunks.flatten.length ≤ maxResponseBytes

def Value.IsInfinite (v : Value) : Prop := ∃ negative, v = .float (.infinite negative)

/-- No infinite number is read as a count. -/
def CountsReadable (interp : Interpreter) (inputKeys outputKeys : List String) (data : Entries) :
    Prop :=
  ∀ usage, data.get "usage" = .dict usage →
    ¬ (firstCount usage inputKeys).IsInfinite ∧
      ((∃ n, (firstCount usage inputKeys).toInt interp = .ok n) →
        ¬ (firstCount usage outputKeys).IsInfinite)

/-- Counts that are read are not negative. -/
def CountsNonNegative (interp : Interpreter) (inputKeys outputKeys : List String)
    (data : Entries) : Prop :=
  ∀ usage, data.get "usage" = .dict usage → ∀ a b,
    (firstCount usage inputKeys).toInt interp = .ok a →
      (firstCount usage outputKeys).toInt interp = .ok b → 0 ≤ a ∧ 0 ≤ b

/-- The stack suffices for the text of the answer, and where it is an object the counts are not
negative. -/
def CleanText (interp : Interpreter) (inputKeys outputKeys : List String) (data : Entries)
    (text : Except PyError PyStr) : Prop :=
  ∀ t, text = .ok t → interp.loadsText t ≠ .error .recursionError ∧
    ((∃ answer, interp.loadsText t = .ok (.dict answer)) →
      CountsNonNegative interp inputKeys outputKeys data)

/-- The body for `OpenAICompatibleAdapter`. -/
def OpenaiBody (interp : Interpreter) (bytes : List UInt8) : Prop :=
  interp.loadsBytes bytes ≠ .error .recursionError ∧
    ∀ data, interp.loadsBytes bytes = .ok (.dict data) →
      CountsReadable interp ["prompt_tokens", "input_tokens"]
          ["completion_tokens", "output_tokens"] data ∧
        CleanText interp ["prompt_tokens", "input_tokens"] ["completion_tokens", "output_tokens"]
          data (contentOf data)

/-- The value under `content`. -/
def contentValue (data : Entries) : Value :=
  if data.has "content" then data.get "content" else .list []

/-- What an iteration over the content yields are objects. -/
def ContentItems (data : Entries) : Prop :=
  ∀ items, (contentValue data).iterate = .ok items → ∀ item ∈ items, ∃ entries, item = .dict entries

/-- The body for `AnthropicAdapter`. -/
def AnthropicBody (interp : Interpreter) (bytes : List UInt8) : Prop :=
  interp.loadsBytes bytes ≠ .error .recursionError ∧
    ∀ value, interp.loadsBytes bytes = .ok value →
      ∃ data, value = .dict data ∧ CountsReadable interp ["input_tokens"] ["output_tokens"] data ∧
        ContentItems data ∧
        CleanText interp ["input_tokens"] ["output_tokens"] data (textOf data)

/-- The exchange: no exception besides `HTTPError` where one is read, and a clean body where it is
decoded. -/
def OpenaiExchange (interp : Interpreter) : Exchange → Prop
  | .raised e => e ≠ .other
  | .response r => r.Whole interp → r.broken ≠ some .other ∧
      (r.broken = none → r.statusCode < 400 → OpenaiBody interp r.chunks.flatten)

/-- `AnthropicAdapter` looks at the status before it reads. -/
def AnthropicExchange (interp : Interpreter) : Exchange → Prop
  | .raised e => e ≠ .other
  | .response r => r.statusCode < 400 → r.Whole interp → r.broken ≠ some .other ∧
      (r.broken = none → AnthropicBody interp r.chunks.flatten)

/-! ## Before the exchange -/

section Parts

variable {interp : Interpreter} {α : Type} {P : α → Prop}

theorem settles_providerError {code : String} {retryable : Bool} :
    Settles PyError.IsProvider P (providerError code retryable : Except PyError α) := trivial

variable {e : PyError}

theorem normalizeOutputSchema_error {schema : Entries}
    (h : normalizeOutputSchema interp schema = .error e) :
    e = .valueError ∨ e = .recursionError := by
  have hjson : ∀ j : JsonError, j.raised = .valueError ∨ j.raised = .recursionError := by
    intro j
    cases j with
    | invalid => exact .inl rfl
    | recursionError => exact .inr rfl
  unfold normalizeOutputSchema at h
  split at h
  · next j _ =>
    cases h
    exact hjson j
  split at h
  · next j _ =>
    cases h
    exact hjson j
  · split at h
    · cases h
      exact .inl rfl
    · split_ifs at h
      · cases h
        exact .inl rfl
      · cases h
        exact .inr rfl
      · cases h
        exact .inl rfl
      · split at h
        · cases h
        · cases h
          exact .inl rfl

variable {request : StructuredRequest}

theorem settles_checkRequest {c : ProviderCapabilities} {P : Unit → Prop} :
    Settles PyError.IsProvider P (checkRequest interp c request) ↔
      (c.Supported → normalizeOutputSchema interp request.outputSchema ≠ .error .recursionError) ∧
        (Checked interp c request → P ()) := by
  unfold checkRequest Checked
  by_cases hsupported : c.Supported
  · rw [if_neg (not_or.mpr hsupported)]
    cases hschema : normalizeOutputSchema interp request.outputSchema with
    | ok schema => simp [hsupported]
    | error e =>
      rcases normalizeOutputSchema_error hschema with rfl | rfl
      · exact iff_of_true settles_providerError
          ⟨(fun _ h => nomatch h), (fun h => nomatch h.2.choose_spec)⟩
      · exact iff_of_false (fun h => h) (fun h => h.1 hsupported rfl)
  · have hrefused : c.structuredOutput = false ∨ c.structuredOutputMode = .unsupported := by
      unfold ProviderCapabilities.Supported at hsupported
      tauto
    rw [if_pos hrefused]
    exact iff_of_true settles_providerError
      ⟨fun h => absurd h hsupported, fun h => absurd h.1 hsupported⟩

theorem settles_refused {result : Except Refusal Unit} {P : Unit → Prop} :
    Settles PyError.IsProvider P (refused result) ↔
      result ≠ .error .valueError ∧ (result = .ok () → P ()) := by
  match result with
  | .ok () => simp [refused]
  | .error (.permission message) =>
    exact iff_of_true settles_providerError ⟨(fun h => nomatch h), (fun h => nomatch h)⟩
  | .error .valueError => exact iff_of_false (fun h => h) (fun h => h.1 rfl)

/-! ## Reading -/

variable {r : Response}

/-- Chunks are read while what was read is within the limit. -/
theorem readBody_within (broken : Option ClientError) (body : List UInt8)
    (chunks : List (List UInt8)) (hbody : body.length ≤ maxResponseBytes) :
    body.length + ((readBody broken body chunks).1.dropLast.map List.length).sum ≤
      maxResponseBytes := by
  induction chunks generalizing body with
  | nil => simpa [readBody] using hbody
  | cons chunk chunks ih =>
    rw [readBody]
    by_cases hlarge : (body ++ chunk).length > maxResponseBytes
    · rw [if_pos hlarge]
      simpa using hbody
    rw [if_neg hlarge]
    have hrest := ih (body ++ chunk) (Nat.not_lt.mp hlarge)
    dsimp only
    cases hread : (readBody broken (body ++ chunk) chunks).1 with
    | nil => simpa using hbody
    | cons next read =>
      rw [hread] at hrest
      rw [List.dropLast_cons_cons, List.map_cons, List.sum_cons]
      rw [List.length_append] at hrest
      omega

theorem readBody_result {broken : Option ClientError} {body : List UInt8}
    {chunks : List (List UInt8)} (hbody : body.length ≤ maxResponseBytes) :
    (readBody broken body chunks).2 =
      if (body ++ chunks.flatten).length > maxResponseBytes then
        providerError "response_too_large"
      else match broken with
        | some e => .error (.client e)
        | none => .ok (body ++ chunks.flatten) := by
  induction chunks generalizing body with
  | nil =>
    rw [List.flatten_nil, List.append_nil, if_neg (Nat.not_lt.mpr hbody)]
    rfl
  | cons chunk chunks ih =>
    rw [readBody, List.flatten_cons, ← List.append_assoc]
    by_cases hlarge : (body ++ chunk).length > maxResponseBytes
    · have hall : (body ++ chunk ++ chunks.flatten).length > maxResponseBytes := by
        rw [List.length_append]
        omega
      rw [if_pos hlarge, if_pos hall]
    · rw [if_neg hlarge]
      exact ih (Nat.not_lt.mp hlarge)

/-- The exceptions that the clauses around the exchange let out as `ProviderError`. -/
def PyError.IsNamed : PyError → Prop
  | .client e => e ≠ .other
  | e => e.IsProvider

theorem settles_nameClientError {result : Except PyError α} :
    Settles PyError.IsProvider P (nameClientError result) ↔ Settles PyError.IsNamed P result := by
  match result with
  | .ok a => exact Iff.rfl
  | .error (.client .timeout) | .error (.client .httpError) =>
    exact iff_of_true settles_providerError (fun h => nomatch h)
  | .error (.client .other) => exact iff_of_false (fun h => h) (fun h => h rfl)
  | .error (.provider e) | .error .keyError | .error .indexError | .error .typeError
  | .error .valueError | .error .attributeError | .error .overflowError | .error .recursionError =>
    exact Iff.rfl

theorem settles_checkContentLength {P : Unit → Prop} :
    Settles PyError.IsNamed P (checkContentLength interp r) ↔
      ((∃ n, interp.intText (r.contentLength.getD (py "0")) = some n ∧ n ≤ maxResponseBytes) →
        P ()) := by
  unfold checkContentLength
  cases hread : interp.intText (r.contentLength.getD (py "0")) with
  | none => exact iff_of_true trivial (fun ⟨n, h, _⟩ => nomatch h)
  | some n =>
    by_cases hlarge : n > maxResponseBytes
    · simp only [if_pos hlarge]
      refine iff_of_true trivial ?_
      rintro ⟨m, hm, hle⟩
      cases hm
      omega
    · simp only [if_neg hlarge, settles_ok]
      exact ⟨fun h _ => h, fun h => h ⟨n, rfl, by omega⟩⟩

theorem settles_readBody {P : List UInt8 → Prop} :
    Settles PyError.IsNamed P (readBody r.broken [] r.chunks).2 ↔
      (r.chunks.flatten.length ≤ maxResponseBytes → r.broken ≠ some .other ∧
        (r.broken = none → P r.chunks.flatten)) := by
  rw [readBody_result (Nat.zero_le _), List.nil_append]
  by_cases hlarge : r.chunks.flatten.length > maxResponseBytes
  · rw [if_pos hlarge]
    exact iff_of_true trivial (fun hle => absurd hlarge (Nat.not_lt.mpr hle))
  rw [if_neg hlarge]
  have hle : r.chunks.flatten.length ≤ maxResponseBytes := Nat.not_lt.mp hlarge
  cases r.broken with
  | none => exact ⟨fun h _ => ⟨(fun hsome => nomatch hsome), fun _ => h⟩, fun h => (h hle).2 rfl⟩
  | some e =>
    refine ⟨fun h _ => ⟨fun hsome => h (Option.some.inj hsome), ?_⟩, ?_⟩
    · exact fun hnone => nomatch hnone
    · exact fun h he => (h hle).1 (congrArg some he)

theorem settles_checkStatus {P : Unit → Prop} :
    Settles PyError.IsNamed P (checkStatus r) ↔ (r.statusCode < 400 → P ()) := by
  unfold checkStatus
  by_cases hretry : r.statusCode ∈ [408, 409, 425, 429] ∨ r.statusCode ≥ 500
  · rw [if_pos hretry]
    refine iff_of_true trivial (fun hlt => ?_)
    simp only [List.mem_cons, List.not_mem_nil, or_false] at hretry
    omega
  rw [if_neg hretry]
  by_cases hdenied : r.statusCode ∈ [401, 403]
  · rw [if_pos hdenied]
    refine iff_of_true trivial (fun hlt => ?_)
    simp only [List.mem_cons, List.not_mem_nil, or_false] at hdenied
    omega
  · rw [if_neg hdenied]
    by_cases herror : r.statusCode ≥ 400
    · rw [if_pos herror]
      exact iff_of_true trivial (fun hlt => absurd herror (Nat.not_le.mpr hlt))
    · rw [if_neg herror]
      exact ⟨fun h _ => h, fun h => h (Nat.not_le.mp herror)⟩

theorem settles_decodeBody {bytes : List UInt8} {P : Value → Prop} :
    Settles PyError.IsNamed P (decodeBody interp bytes) ↔
      interp.loadsBytes bytes ≠ .error .recursionError ∧
        ∀ value, interp.loadsBytes bytes = .ok value → P value := by
  unfold decodeBody
  cases interp.loadsBytes bytes with
  | ok value => simp
  | error e =>
    cases e with
    | invalid => exact iff_of_true trivial ⟨(fun h => nomatch h), (fun _ h => nomatch h)⟩
    | recursionError => exact iff_of_false (fun h => h) (fun h => h.1 rfl)

/-- The last check of `openaiRead`. -/
def dictOf : Value → Except PyError Entries
  | .dict data => .ok data
  | _ => providerError "invalid_response"

theorem settles_dictOf {P : Entries → Prop} {value : Value} :
    Settles PyError.IsNamed P (dictOf value) ↔ ∀ data, value = .dict data → P data := by
  cases value with
  | dict data => simp [dictOf]
  | _ => exact iff_of_true trivial (fun _ h => by cases h)

/-- `_request` of `OpenAICompatibleAdapter` on a response. -/
theorem settles_openaiRead {P : Entries → Prop} :
    Settles PyError.IsNamed P (openaiRead interp r).result ↔
      (r.Whole interp → r.broken ≠ some .other ∧ (r.broken = none → r.statusCode < 400 →
        interp.loadsBytes r.chunks.flatten ≠ .error .recursionError ∧
          ∀ data, interp.loadsBytes r.chunks.flatten = .ok (.dict data) → P data)) := by
  have hresult : (openaiRead interp r).result = (checkContentLength interp r >>= fun _ =>
      (readBody r.broken [] r.chunks).2 >>= fun bytes => checkStatus r >>= fun _ =>
        decodeBody interp bytes >>= dictOf) := by
    unfold openaiRead
    cases checkContentLength interp r with
    | error e | ok u => rfl
  rw [hresult, settles_bind, settles_checkContentLength, settles_bind, settles_readBody]
  simp only [settles_bind, settles_checkStatus, settles_decodeBody, settles_dictOf]
  unfold Response.Whole
  constructor
  · intro h hwhole
    obtain ⟨hbroken, hrest⟩ := h hwhole.1 hwhole.2
    refine ⟨hbroken, fun hnone hstatus => ?_⟩
    obtain ⟨hdeep, hdata⟩ := hrest hnone hstatus
    exact ⟨hdeep, fun data hload => hdata _ hload data rfl⟩
  · intro h hlength hsize
    obtain ⟨hbroken, hrest⟩ := h ⟨hlength, hsize⟩
    refine ⟨hbroken, fun hnone hstatus => ?_⟩
    obtain ⟨hdeep, hdata⟩ := hrest hnone hstatus
    refine ⟨hdeep, fun value hload data hvalue => ?_⟩
    exact hdata data (hvalue ▸ hload)

/-- The exchange of `AnthropicAdapter` on a response. -/
theorem settles_anthropicRead {P : Value → Prop} :
    Settles PyError.IsNamed P (anthropicRead interp r).result ↔
      (r.statusCode < 400 → r.Whole interp → r.broken ≠ some .other ∧ (r.broken = none →
        interp.loadsBytes r.chunks.flatten ≠ .error .recursionError ∧
          ∀ value, interp.loadsBytes r.chunks.flatten = .ok value → P value)) := by
  have hresult : (anthropicRead interp r).result = (checkStatus r >>= fun _ =>
      checkContentLength interp r >>= fun _ =>
        (readBody r.broken [] r.chunks).2 >>= fun bytes => decodeBody interp bytes) := by
    unfold anthropicRead
    cases checkStatus r with
    | error e => rfl
    | ok u =>
      cases checkContentLength interp r with
      | error e => rfl
      | ok u => rfl
  rw [hresult, settles_bind, settles_checkStatus, settles_bind, settles_checkContentLength,
    settles_bind, settles_readBody]
  simp only [settles_decodeBody]
  unfold Response.Whole
  rw [and_imp]

/-! ## Token counts -/

/-- `int` fails with an `OverflowError` on infinite numbers only, and its other errors are those
that `_usage` catches. -/
theorem toInt_cases (interp : Interpreter) (v : Value) :
    (v.IsInfinite ∧ v.toInt interp = .error .overflowError) ∨
      (¬ v.IsInfinite ∧ ((∃ n, v.toInt interp = .ok n) ∨ v.toInt interp = .error .typeError ∨
        v.toInt interp = .error .valueError)) := by
  match v with
  | .null => exact .inr ⟨(fun ⟨_, h⟩ => nomatch h), .inr (.inl rfl)⟩
  | .bool b | .int n | .float (.finite q) => exact .inr ⟨(fun ⟨_, h⟩ => nomatch h), .inl ⟨_, rfl⟩⟩
  | .float (.infinite negative) => exact .inl ⟨⟨negative, rfl⟩, rfl⟩
  | .float .nan => exact .inr ⟨(fun ⟨_, h⟩ => nomatch h), .inr (.inr rfl)⟩
  | .str text =>
    refine .inr ⟨(fun ⟨_, h⟩ => nomatch h), ?_⟩
    simp only [Value.toInt]
    cases interp.intText text with
    | some n => exact .inl ⟨n, rfl⟩
    | none => exact .inr (.inr rfl)
  | .list items | .dict entries => exact .inr ⟨(fun ⟨_, h⟩ => nomatch h), .inr (.inl rfl)⟩

/-- `_usage` reads the counts, or escapes with an `OverflowError`. -/
theorem usageOf_cases (interp : Interpreter) (inputKeys outputKeys : List String) (data : Entries) :
    (¬ CountsReadable interp inputKeys outputKeys data ∧
        usageOf interp inputKeys outputKeys data = .error .overflowError) ∨
      (CountsReadable interp inputKeys outputKeys data ∧
        ∃ usage, usageOf interp inputKeys outputKeys data = .ok usage ∧
          (usage.NonNegative ↔ CountsNonNegative interp inputKeys outputKeys data)) := by
  unfold usageOf CountsReadable CountsNonNegative
  split
  · next usage husage =>
    rw [husage]
    dsimp only
    -- the output count is looked at only where the input count could be read
    rcases toInt_cases interp (firstCount usage inputKeys) with
      ⟨hinfinite, hinput⟩ | ⟨hfinite, ⟨a, hinput⟩ | hinput | hinput⟩
    · exact .inl ⟨fun h => (h usage rfl).1 hinfinite, by rw [hinput]; rfl⟩
    · rcases toInt_cases interp (firstCount usage outputKeys) with
        ⟨hinfinite, houtput⟩ | ⟨hbounded, ⟨b, houtput⟩ | houtput | houtput⟩
      · exact .inl ⟨fun h => (h usage rfl).2 ⟨a, hinput⟩ hinfinite, by rw [hinput, houtput]; rfl⟩
      · refine .inr ⟨?_, ⟨a, b, true⟩, by rw [hinput, houtput]; rfl, ?_⟩
        · rintro u ⟨rfl⟩
          exact ⟨hfinite, fun _ => hbounded⟩
        · constructor
          · rintro h u ⟨rfl⟩ a' b' ha hb
            cases hinput.symm.trans ha
            cases houtput.symm.trans hb
            exact h
          · intro h
            exact h usage rfl a b hinput houtput
      all_goals
        refine .inr ⟨?_, Usage.none, by rw [hinput, houtput]; rfl, iff_of_true ⟨le_rfl, le_rfl⟩ ?_⟩
        · rintro u ⟨rfl⟩
          exact ⟨hfinite, fun _ => hbounded⟩
        · rintro u ⟨rfl⟩ a' b' _ hb
          cases houtput.symm.trans hb
    all_goals
      refine .inr ⟨?_, Usage.none, by rw [hinput]; rfl, iff_of_true ⟨le_rfl, le_rfl⟩ ?_⟩
      · rintro u ⟨rfl⟩
        exact ⟨hfinite, fun ⟨n, hn⟩ => nomatch hinput.symm.trans hn⟩
      · rintro u ⟨rfl⟩ a' b' ha _
        cases hinput.symm.trans ha
  · next hother =>
    refine .inr ⟨fun u hu => absurd hu (hother u), Usage.none, rfl, ?_⟩
    exact iff_of_true ⟨le_rfl, le_rfl⟩ (fun u hu => absurd hu (hother u))

/-! ## The answer -/

variable {model : PyStr} {requestId : Option Value} {text : Except PyError PyStr} {data : Entries}

/-- The exceptions that make an answer invalid. -/
def PyError.IsCaught (e : PyError) : Prop :=
  e = .keyError ∨ e = .indexError ∨ e = .typeError ∨ e = .valueError

theorem settles_answerOf {usage : Usage} (hcaught : ∀ e, text = .error e → e.IsCaught) :
    Settles PyError.IsProvider (fun r => r.usage.NonNegative)
        (answerOf interp model usage requestId text) ↔
      ∀ t, text = .ok t → interp.loadsText t ≠ .error .recursionError ∧
        ((∃ answer, interp.loadsText t = .ok (.dict answer)) → usage.NonNegative) := by
  match text with
  | .error e =>
    have hsettles : Settles PyError.IsProvider (fun r => r.usage.NonNegative)
        (answerOf interp model usage requestId (.error e)) := by
      rcases hcaught e rfl with rfl | rfl | rfl | rfl <;> exact trivial
    exact iff_of_true hsettles (fun t h => nomatch h)
  | .ok t =>
    simp only [answerOf, bind, Except.bind]
    cases hload : interp.loadsText t with
    | error e =>
      cases e with
      | invalid =>
        refine iff_of_true trivial ?_
        rintro u ⟨rfl⟩
        rw [hload]
        exact ⟨(fun h => nomatch h), (fun ⟨_, h⟩ => nomatch h)⟩
      | recursionError => exact iff_of_false (fun h => h) (fun h => (h t rfl).1 hload)
    | ok value =>
      have hplain : (∀ answer, value ≠ .dict answer) → ∀ u, Except.ok (ε := PyError) t = .ok u →
          interp.loadsText u ≠ .error .recursionError ∧
            ((∃ answer, interp.loadsText u = .ok (.dict answer)) → usage.NonNegative) := by
        rintro hne u ⟨rfl⟩
        rw [hload]
        exact ⟨(fun h => nomatch h), fun ⟨answer, h⟩ => absurd (Except.ok.inj h) (hne answer)⟩
      cases value with
      | dict answer =>
        constructor
        · rintro h u ⟨rfl⟩
          exact ⟨(fun hdeep => nomatch hload.symm.trans hdeep), fun _ => h⟩
        · intro h
          exact (h t rfl).2 ⟨answer, hload⟩
      | _ => exact iff_of_true trivial (hplain (fun _ h => nomatch h))

theorem item_caught (v : Value) (key : String) (h : v.item key = .error e) : e.IsCaught := by
  cases v with
  | dict entries =>
    simp only [Value.item] at h
    split_ifs at h
    cases h
    exact .inl rfl
  | _ =>
    cases h
    exact .inr (.inr (.inl rfl))

theorem first_caught (v : Value) (h : v.first = .error e) : e.IsCaught := by
  match v with
  | .list [] =>
    cases h
    exact .inr (.inl rfl)
  | .list (item :: items) => cases h
  | .str [] =>
    cases h
    exact .inr (.inl rfl)
  | .str (c :: text) => cases h
  | .dict entries =>
    cases h
    exact .inl rfl
  | .null | .bool _ | .int _ | .float _ =>
    cases h
    exact .inr (.inr (.inl rfl))

/-- An error in the first part, or in the rest. -/
theorem bind_caught {β : Type} {x : Except PyError α} {f : α → Except PyError β}
    (h : x >>= f = .error e) : x = .error e ∨ ∃ a, x = .ok a ∧ f a = .error e := by
  cases x with
  | error e' =>
    have hfirst : (Except.error e' : Except PyError β) = .error e := h
    have he : e' = e := Except.error.inj hfirst
    exact .inl (congrArg Except.error he)
  | ok a => exact .inr ⟨a, rfl, h⟩

theorem contentOf_caught (data : Entries) (h : contentOf data = .error e) : e.IsCaught := by
  unfold contentOf at h
  rcases bind_caught h with hitem | ⟨choices, -, h⟩
  · exact item_caught _ _ hitem
  rcases bind_caught h with hfirst | ⟨choice, -, h⟩
  · exact first_caught _ hfirst
  rcases bind_caught h with hitem | ⟨message, -, h⟩
  · exact item_caught _ _ hitem
  rcases bind_caught h with hitem | ⟨content, -, h⟩
  · exact item_caught _ _ hitem
  cases content with
  | str text => cases h
  | _ =>
    cases h
    exact .inr (.inr (.inl rfl))

theorem iterate_caught (v : Value) (h : v.iterate = .error e) : e.IsCaught := by
  cases v with
  | list items | dict entries | str text => cases h
  | _ =>
    cases h
    exact .inr (.inr (.inl rfl))

/-- `get` is there on every item, or the iteration ends with an `AttributeError`. -/
theorem asDicts_cases (items : List Value) :
    ((∀ item ∈ items, ∃ entries, item = .dict entries) ∧ ∃ dicts, asDicts items = .ok dicts) ∨
      ((¬ ∀ item ∈ items, ∃ entries, item = .dict entries) ∧
        asDicts items = .error .attributeError) := by
  induction items with
  | nil => exact .inl ⟨(fun _ h => nomatch h), [], rfl⟩
  | cons item items ih =>
    by_cases hitem : ∃ entries, item = .dict entries
    · obtain ⟨entries, rfl⟩ := hitem
      rcases ih with ⟨hall, dicts, hdicts⟩ | ⟨hsome, herror⟩
      · refine .inl ⟨?_, entries :: dicts, by rw [asDicts, hdicts]; rfl⟩
        exact List.forall_mem_cons.mpr ⟨⟨entries, rfl⟩, hall⟩
      · refine .inr ⟨fun h => hsome (fun i hi => h i (List.mem_cons_of_mem _ hi)), ?_⟩
        rw [asDicts, herror]
        rfl
    · refine .inr ⟨fun h => hitem (h item List.mem_cons_self), ?_⟩
      cases item with
      | dict entries => exact absurd ⟨entries, rfl⟩ hitem
      | _ => rfl

theorem joinParts_caught (parts : List Value) (h : joinParts parts = .error e) : e.IsCaught := by
  induction parts with
  | nil => cases h
  | cons part parts ih =>
    cases part with
    | str text =>
      rw [joinParts] at h
      rcases bind_caught h with hrest | ⟨rest, -, hrest⟩
      · exact ih hrest
      · cases hrest
    | _ =>
      cases h
      exact .inr (.inr (.inl rfl))

/-- The text that `AnthropicAdapter` joins: items without `get` escape, other errors are caught. -/
theorem textOf_cases (data : Entries) :
    (ContentItems data ∧ ∀ e, textOf data = .error e → e.IsCaught) ∨
      (¬ ContentItems data ∧ textOf data = .error .attributeError) := by
  have htext : textOf data = ((contentValue data).iterate >>= fun items =>
      asDicts items >>= fun dicts => joinParts (dicts.filterMap textPart)) := rfl
  rw [htext]
  unfold ContentItems
  cases hiterate : (contentValue data).iterate with
  | error e =>
    refine .inl ⟨(fun items h => nomatch h), ?_⟩
    rintro e' ⟨rfl⟩
    exact iterate_caught _ hiterate
  | ok items =>
    rcases asDicts_cases items with ⟨hall, dicts, hdicts⟩ | ⟨hsome, herror⟩
    · refine .inl ⟨?_, ?_⟩
      · rintro items' ⟨rfl⟩
        exact hall
      · intro e h
        change (asDicts items >>= _) = _ at h
        rw [hdicts] at h
        exact joinParts_caught _ h
    · refine .inr ⟨fun h => hsome (h items rfl), ?_⟩
      change (asDicts items >>= _) = _
      rw [herror]
      rfl

/-- Counts and text together. -/
theorem settles_answer {inputKeys outputKeys : List String}
    (hcaught : ∀ e, text = .error e → e.IsCaught) :
    Settles PyError.IsProvider (fun r => r.usage.NonNegative)
        (usageOf interp inputKeys outputKeys data >>= fun usage =>
          answerOf interp model usage requestId text) ↔
      CountsReadable interp inputKeys outputKeys data ∧
        CleanText interp inputKeys outputKeys data text := by
  rcases usageOf_cases interp inputKeys outputKeys data with
    ⟨hescapes, husage⟩ | ⟨hreadable, usage, husage, hcounts⟩
  · rw [husage]
    exact iff_of_false (fun h => h) (fun h => hescapes h.1)
  · rw [husage, settles_bind, settles_ok, settles_answerOf hcaught, hcounts]
    exact ⟨fun h => ⟨hreadable, h⟩, fun h => h.2⟩

theorem settles_openaiAnswer :
    Settles PyError.IsProvider (fun a => a.usage.NonNegative)
        (openaiAnswer interp request r data) ↔
      CountsReadable interp ["prompt_tokens", "input_tokens"]
          ["completion_tokens", "output_tokens"] data ∧
        CleanText interp ["prompt_tokens", "input_tokens"] ["completion_tokens", "output_tokens"]
          data (contentOf data) :=
  settles_answer (fun _ h => contentOf_caught data h)

theorem settles_anthropicAnswer {value : Value} :
    Settles PyError.IsProvider (fun a => a.usage.NonNegative)
        (anthropicAnswer interp request r value) ↔
      ∃ data, value = .dict data ∧ CountsReadable interp ["input_tokens"] ["output_tokens"] data ∧
        ContentItems data ∧
        CleanText interp ["input_tokens"] ["output_tokens"] data (textOf data) := by
  cases value with
  | dict data =>
    have hdata : ∀ {P : Entries → Prop}, (∃ d, Value.dict data = .dict d ∧ P d) ↔ P data :=
      fun {P} => ⟨fun ⟨d, hd, h⟩ => Value.dict.inj hd ▸ h, fun h => ⟨data, rfl, h⟩⟩
    rw [hdata]
    rcases textOf_cases data with ⟨hitems, hcaught⟩ | ⟨hitem, htext⟩
    · rw [and_iff_right hitems]
      exact settles_answer hcaught
    refine iff_of_false ?_ (fun h => hitem h.2.1)
    show ¬ Settles _ _ (usageOf interp ["input_tokens"] ["output_tokens"] data >>= _)
    rw [htext]
    -- whether or not the counts could be read, what ends it is no `ProviderError`
    rcases usageOf_cases interp ["input_tokens"] ["output_tokens"] data with
      ⟨_, husage⟩ | ⟨_, usage, husage, _⟩
    · rw [husage]
      exact fun h => h
    · rw [husage]
      exact fun h => h
  | _ => exact iff_of_false (fun h => h) (fun ⟨_, h, _⟩ => nomatch h)

end Parts

/-! ## The adapters -/

theorem openaiRead_within (interp : Interpreter) (r : Response) :
    WithinLimit (openaiRead interp r).read := by
  unfold openaiRead
  cases checkContentLength interp r with
  | error e => exact Nat.zero_le _
  | ok u =>
    have h := readBody_within r.broken [] r.chunks (Nat.zero_le _)
    rw [List.length_nil, Nat.zero_add] at h
    exact h

theorem anthropicRead_within (interp : Interpreter) (r : Response) :
    WithinLimit (anthropicRead interp r).read := by
  unfold anthropicRead
  cases checkStatus r with
  | error e => exact Nat.zero_le _
  | ok u =>
    cases checkContentLength interp r with
    | error e => exact Nat.zero_le _
    | ok u =>
      have h := readBody_within r.broken [] r.chunks (Nat.zero_le _)
      rw [List.length_nil, Nat.zero_add] at h
      exact h

/-- Both adapters, up to what becomes of the exchange. -/
theorem sound_generate_iff {α : Type} {interp : Interpreter} {c : ProviderCapabilities}
    {egress : Except Refusal Unit} {read : Response → Outcome α}
    {answer : Response → α → Except PyError StructuredResponse} {request : StructuredRequest}
    {exchange : Exchange} (hread : ∀ r, WithinLimit (read r).read) :
    (generate interp c egress read answer request exchange).Sound ↔
      CleanUpTo interp c request egress (match exchange with
        | .raised e => e ≠ .other
        | .response r => Settles PyError.IsNamed (fun a => Settles PyError.IsProvider
            (fun out => out.usage.NonNegative) (answer r a)) (read r).result) := by
  have hwithin : WithinLimit (generate interp c egress read answer request exchange).read := by
    unfold generate
    cases checkRequest interp c request with
    | error e => exact Nat.zero_le _
    | ok u =>
      cases refused egress with
      | error e => exact Nat.zero_le _
      | ok u =>
        cases exchange with
        | raised e => exact Nat.zero_le _
        | response r => exact hread r
  have hresult : (generate interp c egress read answer request exchange).result =
      (checkRequest interp c request >>= fun _ => refused egress >>= fun _ =>
        match exchange with
        | .raised e => nameClientError (.error (.client e))
        | .response r => nameClientError (read r).result >>= answer r) := by
    unfold generate
    cases checkRequest interp c request with
    | error e => rfl
    | ok u =>
      cases refused egress with
      | error e => rfl
      | ok u =>
        cases exchange with
        | raised e => rfl
        | response r => rfl
  unfold Outcome.Sound CleanUpTo
  rw [and_iff_left hwithin, hresult, settles_bind, settles_checkRequest, settles_bind,
    settles_refused]
  cases exchange with
  | raised e =>
    rw [settles_nameClientError]
    exact Iff.rfl
  | response r =>
    dsimp only
    rw [settles_bind, settles_nameClientError]

/-- **What comes out of `OpenAICompatibleAdapter`.** -/
theorem openai_sound_iff (adapter : OpenAICompatibleAdapter) (interp : Interpreter)
    (network : Network) (request : StructuredRequest) (exchange : Exchange) :
    (adapter.generateStructured interp network request exchange).Sound ↔
      CleanUpTo interp (adapter.modelCapabilities request.model) request (adapter.egress network)
        (OpenaiExchange interp exchange) := by
  unfold OpenAICompatibleAdapter.generateStructured
  rw [sound_generate_iff (openaiRead_within interp)]
  cases exchange with
  | raised e => exact Iff.rfl
  | response r =>
    dsimp only
    rw [settles_openaiRead]
    simp only [settles_openaiAnswer]
    exact Iff.rfl

/-- **What comes out of `AnthropicAdapter`.** -/
theorem anthropic_sound_iff (interp : Interpreter) (network : Network)
    (request : StructuredRequest) (exchange : Exchange) :
    (anthropicGenerateStructured interp network request exchange).Sound ↔
      CleanUpTo interp (anthropicCapabilities request.model) request (anthropicEgress network)
        (AnthropicExchange interp exchange) := by
  unfold anthropicGenerateStructured
  rw [sound_generate_iff (anthropicRead_within interp)]
  cases exchange with
  | raised e => exact Iff.rfl
  | response r =>
    dsimp only
    rw [settles_anthropicRead]
    simp only [settles_anthropicAnswer]
    exact Iff.rfl

/-- **Both adapters end in an answer with counts that are not negative or in `ProviderError`, and
read at most one chunk beyond the limit, exactly on clean requests and exchanges.** -/
theorem provider_errors_iff (adapter : OpenAICompatibleAdapter) (interp : Interpreter)
    (network : Network) (request : StructuredRequest) (exchange : Exchange) :
    ((adapter.generateStructured interp network request exchange).Sound ↔
        CleanUpTo interp (adapter.modelCapabilities request.model) request
          (adapter.egress network) (OpenaiExchange interp exchange)) ∧
      ((anthropicGenerateStructured interp network request exchange).Sound ↔
        CleanUpTo interp (anthropicCapabilities request.model) request (anthropicEgress network)
          (AnthropicExchange interp exchange)) :=
  ⟨openai_sound_iff adapter interp network request exchange,
    anthropic_sound_iff interp network request exchange⟩

/-! ## An infinite count -/

/-- The count of the prompt is `1e400`. -/
def infiniteBody : List UInt8 :=
  "\x7b\"usage\":\x7b\"prompt_tokens\":1e400\x7d\x7d".toList.map (fun c => UInt8.ofNat c.toNat)

def infiniteInterpreter : Interpreter where
  loadsBytes body :=
    if body = infiniteBody then
      .ok (.dict [(py "usage", .dict [(py "prompt_tokens", .float (.infinite false))])])
    else .error .invalid
  loadsText text := if text = py "\x7b\x7d" then .ok (.dict []) else .error .invalid
  dumps value := match value with
    | .dict [] => .ok (py "\x7b\x7d")
    | _ => .error .invalid
  intText text := if text = py "0" then some 0 else none
  tooDeep _ := false

/-- A gateway on the allowlist, called through a client of the caller's. -/
def gateway : OpenAICompatibleAdapter := ⟨"https://a.io".toList, [], false⟩

def gatewayNetwork : Network :=
  ⟨⟨["a.io".toList]⟩, ⟨fun _ => true, fun host => host.map Char.toLower⟩, none⟩

/-- The `OverflowError` of the infinite count escapes. -/
theorem provider_errors_infinite :
    ¬ (gateway.generateStructured infiniteInterpreter gatewayNetwork ⟨py "m", []⟩
      (.response ⟨200, none, none, [infiniteBody], none⟩)).Sound := by
  have hallowed : gateway.egress gatewayNetwork = .ok () := by rfl
  have hclean : infiniteInterpreter.loadsBytes [infiniteBody].flatten =
      .ok (.dict [(py "usage", .dict [(py "prompt_tokens", .float (.infinite false))])]) := by
    show infiniteInterpreter.loadsBytes (infiniteBody ++ []) = _
    rw [List.append_nil]
    simp only [infiniteInterpreter, if_true]
  intro hsound
  have hclear := (openai_sound_iff gateway infiniteInterpreter gatewayNetwork _ _).mp hsound
  have hchecked : Checked infiniteInterpreter (gateway.modelCapabilities (py "m")) ⟨py "m", []⟩ :=
    ⟨⟨by decide, by decide⟩, .dict [], by rfl⟩
  have hexchange := (hclear.2 hchecked).2 hallowed
  have hbody := (hexchange ⟨⟨0, by rfl, by decide⟩, by decide⟩).2 rfl (by decide)
  have hcounts := (hbody.2 _ hclean).1
  exact (hcounts _ rfl).1 ⟨false, rfl⟩

end MegaPanel.AiProviders

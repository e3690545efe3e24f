import MegaPanel.AiContent.Drafts
import MegaPanel.Lib.Run
import MegaPanel.PagePlans.Claims
import MegaPanel.Redaction.Identifiers

set_option autoImplicit false

/-! # The provenance of drafts from AI runs

The runs and drafts of a project under any sequence of requests: runs are generated, executed by the
worker and decided, and the four routes make drafts of them. Every run has a provider, a model and a
prompt, and no route takes over a fact key that the confirmed facts do not have. The route for the
slots of a block writes these fields one level deeper than QA looks for them, so QA blocks each of
its drafts, and none of the others (`provenance_iff`).
-/

namespace MegaPanel.AiContent

open MegaPanel.Lib MegaPanel.Lib.Text
open MegaPanel.AiBudget (RunId Kind)
open MegaPanel.AiRuns (Decision)
open MegaPanel.BulkEdit (truthy)
open MegaPanel.PagePlans (DraftId PagePlan textAt)
open MegaPanel.SiteStructure (PlanId)

variable (env : Env)

/-! ## Steps -/

structure State where
  runs : Table RunId AIRun
  drafts : Table DraftId Draft

def start : State := ⟨.empty, .empty⟩

/-- A request with the rows and answers that it gets; the prompt is that of a file with the active
revision of the operator. -/
inductive Action
  | seoBrief (runId : RunId) (reads : Reads) (planId : PlanId) (model : String)
      (prompt : PromptAsset × Option PromptRevision) (answer : Option SeoBrief) (cost : Cost)
  | blockSlotCopy (runId : RunId) (reads : Reads) (planId : PlanId) (model blockId : String)
      (prompt : PromptAsset × Option PromptRevision) (answer : Option BlockSlotCopy) (cost : Cost)
  | pageDraftCopy (runId : RunId) (draftId : DraftId) (reads : Reads) (planId : PlanId)
      (model : String) (prompt : PromptAsset × Option PromptRevision) (answer : Option PageCopy)
      (tokens : Json × Json) (cost : Cost)
  | intent (runId : RunId) (reads : Reads) (planId : PlanId) (model : String)
      (prompt : PromptAsset × Option PromptRevision) (cost : Json)
  /-- The worker executes a reserved run by its envelope. -/
  | execute (runId : RunId) (compiled : IntentContext) (connection : ProviderConnection)
      (model : String) (answer : Option IntentProposal) (cost : Cost)
  | decide (runId : RunId) (decision : Decision)
  | draftFromBrief (runId : RunId) (draftId : DraftId) (reads : Reads)
  | draftFromSlots (runId : RunId) (draftId : DraftId) (reads : Reads)
  | materialize (runId : RunId) (draftId : DraftId) (reads : Reads)

def promptOf (prompt : PromptAsset × Option PromptRevision) : EffectivePrompt :=
  activePrompt prompt.1 prompt.2

/-- A new run. -/
def State.insertRun (st : State) (runId : RunId) (run : AIRun) : Option State :=
  if st.runs.get runId = none then some { st with runs := st.runs.set runId run } else none

/-- A new draft, and the run with its id. -/
def State.insertDraft (st : State) (runId : RunId) (run : AIRun) (draftId : DraftId)
    (draft : Draft) : Option State :=
  if st.drafts.get draftId = none then
    some
      { runs := st.runs.set runId { run with pageDraftId := some draftId }
        drafts := st.drafts.set draftId draft }
  else none

/-- The run of a route, which looks for its own action. -/
def State.runOf (st : State) (runId : RunId) (action : Kind) : Option AIRun :=
  (st.runs.get runId).filter (fun run => decide (run.action = action))

def step (st : State) : Action → Option State
  | .seoBrief runId reads planId model prompt answer cost =>
    (generateSeoBrief env reads planId model (promptOf prompt) answer cost).toOption.bind
      (st.insertRun runId)
  | .blockSlotCopy runId reads planId model blockId prompt answer cost =>
    (generateBlockSlotCopy env reads planId model blockId (promptOf prompt) answer
      cost).toOption.bind (st.insertRun runId)
  | .pageDraftCopy runId draftId reads planId model prompt answer tokens cost =>
    (generateAiPageDraft env reads planId model (promptOf prompt) answer tokens cost
      runId).toOption.bind (fun made =>
        (st.insertRun runId made.1).bind (fun st' =>
          if st.drafts.get draftId = none then
            some { st' with drafts := st.drafts.set draftId made.2 }
          else none))
  | .intent runId reads planId model prompt cost =>
    (reserveIntent env reads planId model (promptOf prompt) cost).toOption.bind (fun made =>
      st.insertRun runId made.1)
  | .execute runId compiled connection model answer cost =>
    ((st.runOf runId .intentPageProposal).filter (fun run =>
      decide (run.status = .reserved ∧ model ≠ ""))).map (fun run =>
        { st with
          runs := st.runs.set runId
            (executeIntent env run compiled connection model answer cost) })
  | .decide runId decision =>
    (st.runs.get runId).bind (fun run => (decideAiRun run decision).toOption.map (fun decided =>
      { st with runs := st.runs.set runId decided }))
  | .draftFromBrief runId draftId reads =>
    (st.runOf runId .seoBrief).bind (fun run =>
      (createDraftFromSeoBrief env reads runId run).toOption.bind
        (st.insertDraft runId run draftId))
  | .draftFromSlots runId draftId reads =>
    (st.runOf runId .blockSlotCopy).bind (fun run =>
      (createDraftFromBlockSlotProposal env reads runId run).toOption.bind
        (st.insertDraft runId run draftId))
  | .materialize runId draftId reads =>
    (st.runOf runId .intentPageProposal).bind (fun run =>
      -- a run whose draft is still there answers with that draft
      if run.status = .approved ∧ (run.pageDraftId.bind st.drafts.get).isNone then
        (materializeIntentPageDraft env reads runId run).toOption.bind
          (st.insertDraft runId run draftId)
      else none)

/-! ## Facts -/

variable {facts : List (String × Json)} {key : String} {items : List Json}

/-- **The facts for a provider have keys of the confirmed facts**, and no others. -/
theorem publicFactRows_spec {row : Json} (h : row ∈ publicFactRows facts) :
    ∃ key value, row = factRow key value ∧ (key = "service" ∨ key = "services") ∧
      (Json.get? facts key).isSome := by
  rw [publicFactRows, List.mem_append] at h
  rcases h with h | h
  · split at h
    · cases h
    next hservice =>
    rw [List.mem_singleton] at h
    refine ⟨"service", _, h, .inl rfl, ?_⟩
    by_contra hnone
    rw [Option.not_isSome_iff_eq_none] at hnone
    exact hservice (by rw [textAt, hnone]; rfl)
  · obtain ⟨value, hvalue, rfl⟩ := List.mem_map.mp h
    refine ⟨"services", value, rfl, .inr rfl, ?_⟩
    by_contra hnone
    rw [Option.not_isSome_iff_eq_none] at hnone
    rw [itemsAt, hnone] at hvalue
    simp [textItems] at hvalue

theorem textsUnder_factRow (h : key ∈ textsUnder "fact_key" items) :
    ∃ entries, Json.dict entries ∈ items ∧ Json.get? entries "fact_key" = some (.str key) := by
  obtain ⟨v, hv, hkey⟩ := List.mem_filterMap.mp h
  split at hkey
  · next entries =>
    split at hkey
    · next text htext =>
      cases hkey
      exact ⟨entries, hv, htext⟩
    · cases hkey
  · cases hkey

theorem mem_factKeys (h : key ∈ factKeys facts) : (Json.get? facts key).isSome := by
  obtain ⟨entries, hmem, hkey⟩ := textsUnder_factRow h
  obtain ⟨k, value, hrow, -, hsome⟩ := publicFactRows_spec hmem
  cases hrow
  rw [Json.get?_cons_self] at hkey
  cases hkey
  exact hsome

/-! ## What redaction leaves of them -/

variable {R : Redaction.CharClasses} {entries : List (String × Json)}

/-- A word of small letters has nothing to redact. -/
theorem redactPii_word {s : String} (h : ∀ c ∈ s.toList, c.isLower = true) :
    Redaction.redactPii R s = s := by
  have hlower : ∀ c ∈ s.toList, 97 ≤ c.toNat ∧ c.toNat ≤ 122 := by
    intro c hc
    have hc : (c.val ≥ 'a'.val && c.val ≤ 'z'.val) = true := h c hc
    simp only [Bool.and_eq_true, decide_eq_true_eq, ge_iff_le] at hc
    exact ⟨hc.1, hc.2⟩
  have hat : '@' ∉ s.toList := fun hmem => absurd (hlower _ hmem).1 (by decide)
  have hphones : Redaction.redactPhones R s.toList = s.toList := by
    refine substitute_eq_self (fun rest hrest => ?_)
    cases rest with
    | nil => rfl
    | cons c cs =>
      have hc := hlower c (hrest.subset (List.mem_cons_self ..))
      have hdigit : R.decimal c = false := by
        rw [R.decimal_ascii c (by omega)]
        simp only [Char.isDigit, Bool.and_eq_false_iff, decide_eq_false_iff_not]
        right
        intro hle
        have hle : c.toNat ≤ 57 := hle
        omega
      have hplus : c ≠ '+' := by
        rintro rfl
        exact absurd hc.1 (by decide)
      have hlength : R.phoneLength (c :: cs) = R.digitsLength (c :: cs) := by
        unfold Redaction.CharClasses.phoneLength
        split
        · next heq => exact absurd (List.cons.inj heq).1 hplus
        · rfl
      rw [hlength, Redaction.CharClasses.digitsLength, hdigit]
      rfl
  rw [Redaction.redactPii, hphones, Redaction.redactEmails_eq_self hat, String.ofList_toList]

theorem safeEntries_get? {safe : List (String × Json)}
    (h : Redaction.safeEntries R entries = .ok safe) (key : String) :
    Json.get? safe key = (Json.get? entries key).bind (fun v =>
      (Redaction.safeProviderContext R v).toOption) := by
  induction entries generalizing safe with
  | nil =>
    cases h
    rfl
  | cons e rest ih =>
    obtain ⟨k, v⟩ := e
    unfold Redaction.safeEntries at h
    split at h
    · cases h
    next w hw =>
    split at h
    · cases h
    next others hothers =>
    cases h
    by_cases hkey : k = key
    · subst hkey
      rw [Json.get?_cons_self, Json.get?_cons_self, Option.bind_some, hw]
      rfl
    · rw [Json.get?_cons_ne hkey, Json.get?_cons_ne hkey, ih hothers]

theorem mem_safeItems {safe : List Json} (h : Redaction.safeItems R items = .ok safe) {w : Json}
    (hw : w ∈ safe) : ∃ v ∈ items, Redaction.safeProviderContext R v = .ok w := by
  induction items generalizing safe with
  | nil =>
    cases h
    cases hw
  | cons v rest ih =>
    unfold Redaction.safeItems at h
    split at h
    · cases h
    next w' hw' =>
    split at h
    · cases h
    next others hothers =>
    cases h
    rcases List.mem_cons.mp hw with rfl | hw
    · exact ⟨v, List.mem_cons_self .., hw'⟩
    · obtain ⟨v', hv', hsafe⟩ := ih hothers hw
      exact ⟨v', List.mem_cons_of_mem _ hv', hsafe⟩

/-- A redacted dictionary has the redacted value under each key. -/
theorem safe_dict {safe : Json} (h : Redaction.safeProviderContext R (.dict entries) = .ok safe) :
    ∃ safe', safe = .dict safe' ∧ Redaction.safeEntries R entries = .ok safe' := by
  unfold Redaction.safeProviderContext at h
  split_ifs at h
  split at h
  · next safe' hsafe =>
    cases h
    exact ⟨safe', rfl, hsafe⟩
  · cases h

/-- **The keys survive the redaction.** The fact keys of a context are those of the facts. -/
theorem contextFactKeys_known {snapshot : Json}
    (hfacts : Json.get? entries "confirmed_facts" = some (.list (publicFactRows facts)))
    (h : Redaction.safeProviderContext R (.dict entries) = .ok snapshot) :
    ∀ key ∈ contextFactKeys snapshot, (Json.get? facts key).isSome := by
  intro key hkey
  obtain ⟨safe, rfl, hsafe⟩ := safe_dict h
  obtain ⟨row, hrow, hget⟩ := textsUnder_factRow hkey
  have hconfirmed := safeEntries_get? hsafe "confirmed_facts"
  rw [hfacts, Option.bind_some] at hconfirmed
  unfold Redaction.safeProviderContext at hconfirmed
  cases hitems : Redaction.safeItems R (publicFactRows facts) with
  | error e =>
    rw [hitems] at hconfirmed
    rw [itemsAt, hconfirmed] at hrow
    cases hrow
  | ok items =>
    rw [hitems] at hconfirmed
    rw [itemsAt, hconfirmed] at hrow
    obtain ⟨v, hv, hredacted⟩ := mem_safeItems hitems hrow
    obtain ⟨k, value, rfl, hk, hsome⟩ := publicFactRows_spec hv
    obtain ⟨row', hrow', hentries⟩ := safe_dict hredacted
    cases hrow'
    have hword : Redaction.redactPii R k = k := by
      refine redactPii_word ?_
      rcases hk with rfl | rfl <;> decide
    have hfield := safeEntries_get? hentries "fact_key"
    rw [hget, Json.get?_cons_self, Option.bind_some] at hfield
    unfold Redaction.safeProviderContext at hfield
    split at hfield
    · cases hfield
    · cases hfield
      rwa [hword]

/-! ## What an answer may cite -/

variable {keys known : List String}

theorem known_of_any_eq_false (h : ¬ keys.any (!known.contains ·) = true) :
    ∀ key ∈ keys, key ∈ known := by
  intro key hkey
  by_contra hunknown
  exact h (List.any_eq_true.mpr ⟨key, hkey, by simpa using hunknown⟩)

theorem validatePageCopy_eq_ok {copy out : PageCopy} (h : validatePageCopy copy known = .ok out) :
    ∀ key ∈ out.factKeys, key ∈ known := by
  unfold validatePageCopy at h
  dsimp only at h
  split_ifs at h with _ _ hknown
  cases h
  exact known_of_any_eq_false hknown

theorem validateSeoBrief_eq_ok {brief out : SeoBrief} {planSlug : String} {keywordIds : List String}
    (h : validateSeoBrief brief planSlug keywordIds known = .ok out) :
    ∀ key ∈ out.factKeys, key ∈ known := by
  unfold validateSeoBrief at h
  dsimp only at h
  split_ifs at h with _ _ hknown
  cases h
  exact known_of_any_eq_false hknown

theorem validateIntentPageProposal_eq_ok {proposal out : IntentProposal} {pagePlanId : PlanId}
    {planVersion : Nat} {allowed : Rendering.Dict (List (String × Nat))} {semanticIds : List String}
    (h : validateIntentPageProposal env proposal pagePlanId planVersion allowed known semanticIds =
      .ok out) : ∀ key ∈ out.factKeys, key ∈ known := by
  unfold validateIntentPageProposal at h
  split_ifs at h with _ _ hknown
  dsimp only at h
  split at h
  · cases h
  cases h
  exact known_of_any_eq_false hknown

/-! ## What QA finds -/

variable {draft : Draft}

/-- QA does not find that provenance is missing, or that a fact is unknown. -/
def CarriesProvenance (draft : Draft) : Prop :=
  ∀ f ∈ provenanceFindings draft.pageManifest draft.inputSnapshot,
    f.rule ≠ "ai_provenance" ∧ f.rule ≠ "ai_fact_provenance"

theorem carriesProvenance_iff (h : draft.inputSnapshot.aiProvenance ≠ []) :
    CarriesProvenance draft ↔
      missingProvenance draft.inputSnapshot.aiProvenance = [] ∧
        unknownFactKeys draft.inputSnapshot.base.facts draft.inputSnapshot.aiProvenance = [] := by
  rw [CarriesProvenance, provenanceFindings, if_neg h]
  constructor
  · intro hall
    constructor
    · by_contra hmissing
      rw [if_neg hmissing] at hall
      exact (hall _ (List.mem_append_left _ (List.mem_append_left _
        (List.mem_singleton_self _)))).1 rfl
    · by_contra hunknown
      rw [if_neg hunknown] at hall
      exact (hall _ (List.mem_append_left _ (List.mem_append_right _
        (List.mem_singleton_self _)))).2 rfl
  · rintro ⟨hmissing, hunknown⟩ f hf
    rw [if_pos hmissing, if_pos hunknown, List.nil_append, List.nil_append] at hf
    split at hf
    · cases hf
    · rw [List.mem_singleton.mp hf]
      exact ⟨by decide, by decide⟩

theorem textItems_map (texts : List String) : textItems (texts.map Json.str) = texts := by
  induction texts with
  | nil => rfl
  | cons text rest ih =>
    show text :: textItems (rest.map Json.str) = text :: rest
    rw [ih]

/-- The keys that an answer cites are known. -/
theorem unknownFactKeys_eq_nil {provenance : List (String × Json)}
    (hkeys : Json.get? provenance "fact_keys" = some (textsJson keys))
    (h : ∀ key ∈ keys, (Json.get? facts key).isSome) : unknownFactKeys facts provenance = [] := by
  have hcited : textItems (itemsAt provenance "fact_keys") = keys := by
    rw [itemsAt, hkeys]
    exact textItems_map keys
  rw [unknownFactKeys, hcited]
  have hnone : keys.eraseDups.filter (fun key => (Json.get? facts key).isNone) = [] := by
    rw [List.filter_eq_nil_iff]
    intro key hkey hisNone
    have hsome := h key (List.mem_eraseDups.mp hkey)
    rw [Option.isNone_iff_eq_none.mp hisNone] at hsome
    cases hsome
  rw [hnone, List.mergeSort_nil]

/-- A run has a provider, a model and a prompt. -/
structure Named (run : AIRun) : Prop where
  provider : ∃ name, run.providerId = some name ∧ name ≠ ""
  model : ∃ name, run.modelId = some name ∧ name ≠ ""
  prompt : run.promptId ≠ "" ∧ run.promptVersion ≠ "" ∧ run.promptHash ≠ ""

/-- Nothing is missing where the fields of a run are. -/
theorem missingProvenance_eq_nil {run : AIRun} (h : Named run) {provenance : List (String × Json)}
    (hfields : ∀ e ∈ runFields run, Json.get? provenance e.1 = some e.2) :
    missingProvenance provenance = [] := by
  obtain ⟨provider, hprovider, hprovider_ne⟩ := h.provider
  obtain ⟨model, hmodel, hmodel_ne⟩ := h.model
  obtain ⟨hid, hversion, hhash⟩ := h.prompt
  simp only [runFields, List.forall_mem_cons, hprovider, hmodel, Option.elim_some] at hfields
  obtain ⟨h1, h2, h3, h4, h5, -⟩ := hfields
  simp [missingProvenance, requiredProvenance, h1, h2, h3, h4, h5, truthy, hprovider_ne, hmodel_ne,
    hid, hversion, hhash]

/-- **A draft that has the fields of its run**, and the keys of known facts, carries provenance. -/
theorem carriesProvenance_of_fields {run : AIRun} (hrun : Named run) {draft : Draft}
    {keys : List String}
    (hfields : ∀ e ∈ runFields run ++ [("fact_keys", textsJson keys)],
      Json.get? draft.inputSnapshot.aiProvenance e.1 = some e.2)
    (hknown : ∀ key ∈ keys, (Json.get? draft.inputSnapshot.base.facts key).isSome) :
    CarriesProvenance draft := by
  rw [List.forall_mem_append, List.forall_mem_singleton] at hfields
  refine (carriesProvenance_iff ?_).mpr ⟨missingProvenance_eq_nil hrun hfields.1,
    unknownFactKeys_eq_nil hfields.2 hknown⟩
  intro hnil
  rw [hnil] at hfields
  exact absurd hfields.2 (by simp [Json.get?])

theorem get?_runFields (run : AIRun) (keys : List String) :
    ∀ e ∈ runFields run ++ [("fact_keys", textsJson keys)],
      Json.get? (runFields run ++ [("fact_keys", textsJson keys)]) e.1 = some e.2 := by
  intro e he
  refine PagePlans.get?_of_mem ?_ he
  show ["provider_id", "model_id", "prompt_id", "prompt_version", "prompt_hash",
    "fact_keys"].Nodup
  decide

/-! ## The drafts of the four routes -/

variable {plan : PagePlan} {runId : RunId} {planId : PlanId} {model : String} {context : Context}
  {action : Kind} {prompt : PromptAsset × Option PromptRevision} {cost : Cost}
  {compiled : IntentContext}

theorem deterministicDraft_facts {domain : Option String} {facts : PagePlans.Facts}
    {design : Option SiteManifest.Design} {made : Deterministic}
    (h : deterministicDraft env domain plan facts design = .ok made) :
    made.snapshot.facts = facts.values := by
  unfold deterministicDraft at h
  split at h
  · cases h
  next page snapshot hmade =>
  cases h
  exact (PagePlans.createPageDraft_eq_ok hmade).2.1

theorem createDraftFromSeoBrief_carries {reads : Reads} {run : AIRun} (hrun : Named run)
    (h : createDraftFromSeoBrief env reads runId run = .ok draft) :
    draft.route = .seoBrief ∧ CarriesProvenance draft := by
  unfold createDraftFromSeoBrief at h
  split at h
  · cases h
  · cases h
  · split at h
    · cases h
    · cases h
    next brief hbrief hmade =>
    cases h
    refine ⟨rfl, carriesProvenance_of_fields hrun (get?_runFields run _) (fun key hkey => ?_)⟩
    dsimp only
    rw [deterministicDraft_facts env hmade]
    exact mem_factKeys (validateSeoBrief_eq_ok hbrief key hkey)
  · cases h

/-- The context of a request has the facts that its draft has. -/
theorem prepareDraftContext_eq_ok {reads : Reads}
    (h : prepareDraftContext env reads planId model = .ok context) :
    context.model ≠ "" ∧
      ∀ key ∈ context.factKeys, (Json.get? context.deterministic.snapshot.facts key).isSome := by
  unfold prepareDraftContext at h
  split at h
  · cases h
  split at h
  · cases h
  split at h
  · cases h
  · cases h
  split at h
  · cases h
  next hmodel =>
  split at h
  · cases h
  · cases h
  next deterministic hmade =>
  split at h
  · cases h
  next snapshot hsafe =>
  cases h
  refine ⟨fun hempty => hmodel (.inl hempty), ?_⟩
  dsimp only
  rw [deterministicDraft_facts env hmade]
  exact contextFactKeys_known rfl hsafe

theorem activePrompt_ne (baseline : PromptAsset) (revision : Option PromptRevision) :
    (activePrompt baseline revision).promptId ≠ "" ∧
      (activePrompt baseline revision).version ≠ "" ∧
      (activePrompt baseline revision).contentHash ≠ "" := by
  have hhash : ∀ text, Sha256.sha256Hex text ≠ "" := by
    intro text hempty
    have hsha := Sha256.isSha256_sha256Hex text
    rw [hempty] at hsha
    cases hsha
  unfold activePrompt
  cases revision.filter (fun r =>
      decide (r.baselineHash = Sha256.sha256Hex baseline.content)) with
  | none => exact ⟨baseline.promptId_ne, baseline.version_ne, hhash _⟩
  | some r =>
    refine ⟨baseline.promptId_ne, fun hempty => baseline.version_ne ?_, hhash _⟩
    have hlist := congrArg String.toList hempty
    simp only [effectivePrompt, String.toList_append, String.toList_empty,
      List.append_eq_nil_iff] at hlist
    exact String.toList_eq_nil_iff.mp hlist.1.1

/-- **A run that is answered is named.** -/
theorem answeredRun_named {status : Status} {output : Output} (h : context.model ≠ "") :
    Named (answeredRun action status context planId (promptOf prompt) output cost) where
  provider := ⟨_, rfl, context.connection.providerId_ne⟩
  model := ⟨_, rfl, h⟩
  prompt := activePrompt_ne prompt.1 prompt.2

theorem generateAiPageDraft_carries {reads : Reads} {answer : Option PageCopy}
    {tokens : Json × Json} {made : AIRun × Draft}
    (h : generateAiPageDraft env reads planId model (promptOf prompt) answer tokens cost runId =
      .ok made) : Named made.1 ∧ made.2.route = .pageDraftCopy ∧ CarriesProvenance made.2 := by
  unfold generateAiPageDraft at h
  split at h
  · cases h
  · cases h
  next context copy hcontext =>
  split at h
  · cases h
  next out hcopy =>
  obtain ⟨hmodel, hknown⟩ := prepareDraftContext_eq_ok env hcontext
  have hnamed : Named (answeredRun .pageDraftCopy .completed context planId (promptOf prompt)
      (.copy out) cost) := answeredRun_named hmodel
  cases h
  refine ⟨hnamed, rfl, @carriesProvenance_of_fields _ hnamed _ out.factKeys ?_ ?_⟩
  · intro e he
    have hnodup : ((runFields (answeredRun .pageDraftCopy .completed context planId
        (promptOf prompt) (.copy out) cost) ++ [("ai_run_id", PagePlans.idText runId),
          ("tokens_in", tokens.1), ("tokens_out", tokens.2), ("cost_usd", cost.usd),
          ("fact_keys", textsJson out.factKeys)]).map (·.1)).Nodup := by
      show ["provider_id", "model_id", "prompt_id", "prompt_version", "prompt_hash", "ai_run_id",
        "tokens_in", "tokens_out", "cost_usd", "fact_keys"].Nodup
      decide
    dsimp only
    rw [Json.get?_merge hnodup, PagePlans.get?_of_mem hnodup]
    · rfl
    · rcases List.mem_append.mp he with he | he
      · exact List.mem_append_left _ he
      · rw [List.mem_singleton.mp he]
        simp
  · intro key hkey
    exact hknown key (validatePageCopy_eq_ok hcopy key hkey)

theorem compileIntentContext_known {reads : Reads}
    (h : compileIntentContext env reads planId plan = .ok compiled) :
    ∀ key ∈ compiled.factKeys,
      (Json.get? compiled.deterministic.snapshot.facts key).isSome := by
  unfold compileIntentContext at h
  split at h
  · cases h
  split at h
  · cases h
  · cases h
  split at h
  · cases h
  split at h
  · cases h
  next deterministic hmade =>
  dsimp only at h
  split at h
  · cases h
  split at h
  · cases h
  split at h
  · cases h
  next snapshot hsafe =>
  cases h
  dsimp only
  rw [deterministicDraft_facts env hmade]
  exact contextFactKeys_known rfl hsafe

theorem materializeIntentPageDraft_carries {reads : Reads} {run : AIRun} (hrun : Named run)
    (h : materializeIntentPageDraft env reads runId run = .ok draft) :
    draft.route = .intentPageProposal ∧ CarriesProvenance draft := by
  unfold materializeIntentPageDraft at h
  split at h
  · cases h
  split at h
  · cases h
  split at h
  · cases h
  next compiled hcompiled =>
  split_ifs at h
  split at h
  · split at h
    · cases h
    next proposal hproposal =>
    cases h
    refine ⟨rfl, carriesProvenance_of_fields hrun (get?_runFields run _) (fun key hkey => ?_)⟩
    exact compileIntentContext_known env hcompiled key
      (validateIntentPageProposal_eq_ok env hproposal key hkey)
  · cases h

/-- What is in the nested dictionary does not count. -/
theorem missingProvenance_nested (keys : List String) (nested : List (String × Json)) :
    missingProvenance [("fact_keys", textsJson keys), ("block_slot_copy", .dict nested)] =
      requiredProvenance := rfl

/-- **The slots of a block come without provenance.** Provider, model and prompt are in the nested
dictionary alone. -/
theorem createDraftFromBlockSlotProposal_bare {reads : Reads} {run : AIRun}
    (h : createDraftFromBlockSlotProposal env reads runId run = .ok draft) :
    draft.route = .blockSlotCopy ∧ ¬ CarriesProvenance draft := by
  unfold createDraftFromBlockSlotProposal at h
  split at h
  · cases h
  · cases h
  · dsimp only at h
    split at h
    · cases h
    split at h
    · cases h
    · cases h
    cases h
    refine ⟨rfl, fun hcarries => ?_⟩
    have hmissing := ((carriesProvenance_iff (List.cons_ne_nil _ _)).mp hcarries).1
    dsimp only at hmissing
    rw [missingProvenance_nested] at hmissing
    cases hmissing
  · cases h

/-! ## Runs of requests -/

variable {st st' : State} {draftId : DraftId}

/-- Runs are named; a draft carries provenance unless it has the slots of a block. -/
structure Sound (st : State) : Prop where
  runs : ∀ id run, st.runs.get id = some run → Named run
  drafts : ∀ id draft, st.drafts.get id = some draft →
    (CarriesProvenance draft ↔ draft.route ≠ .blockSlotCopy)

theorem sound_start : Sound start where
  runs := fun _ _ h => by cases h
  drafts := fun _ _ h => by cases h

theorem Sound.setRun {st : State} (h : Sound st) {runId : RunId} {run : AIRun}
    (hrun : Named run) : Sound { st with runs := st.runs.set runId run } where
  runs := Table.forall_set h.runs hrun
  drafts := h.drafts

theorem Sound.setDraft (h : Sound st)
    (hdraft : CarriesProvenance draft ↔ draft.route ≠ .blockSlotCopy) :
    Sound { st with drafts := st.drafts.set draftId draft } where
  runs := h.runs
  drafts := Table.forall_set h.drafts hdraft

theorem Sound.insertRun (h : Sound st) {run : AIRun} (hrun : Named run)
    (hinsert : st.insertRun runId run = some st') : Sound st' := by
  unfold State.insertRun at hinsert
  split at hinsert
  · cases hinsert
    exact h.setRun hrun
  · cases hinsert

theorem Sound.insertDraft (h : Sound st) {run : AIRun} (hrun : Named run)
    (hdraft : CarriesProvenance draft ↔ draft.route ≠ .blockSlotCopy)
    (hinsert : st.insertDraft runId run draftId draft = some st') : Sound st' := by
  unfold State.insertDraft at hinsert
  split at hinsert
  · cases hinsert
    have hlinked : Named { run with pageDraftId := some draftId } :=
      ⟨hrun.provider, hrun.model, hrun.prompt⟩
    exact (@Sound.setRun st h runId _ hlinked).setDraft hdraft
  · cases hinsert

theorem State.runOf_named (h : Sound st) {run : AIRun} (hrun : st.runOf runId action = some run) :
    Named run :=
  h.runs runId run (Option.filter_eq_some_iff.mp hrun).1

theorem executeIntent_named {run : AIRun} (hrun : Named run) {connection : ProviderConnection}
    (hmodel : model ≠ "") {answer : Option IntentProposal} :
    Named (executeIntent env run compiled connection model answer cost) := by
  unfold executeIntent
  split
  · exact ⟨⟨_, rfl, connection.providerId_ne⟩, ⟨_, rfl, hmodel⟩, hrun.prompt⟩
  · exact ⟨hrun.provider, hrun.model, hrun.prompt⟩

theorem decideAiRun_named {run decided : AIRun} (hrun : Named run) {decision : Decision}
    (h : decideAiRun run decision = .ok decided) : Named decided := by
  unfold decideAiRun at h
  split_ifs at h
  cases h
  exact ⟨hrun.provider, hrun.model, hrun.prompt⟩

theorem generateSeoBrief_named {reads : Reads} {answer : Option SeoBrief} {run : AIRun}
    (h : generateSeoBrief env reads planId model (promptOf prompt) answer cost = .ok run) :
    Named run := by
  unfold generateSeoBrief at h
  split at h
  · cases h
  · cases h
  next context _ hcontext =>
  split at h
  · cases h
  cases h
  exact answeredRun_named (prepareDraftContext_eq_ok env hcontext).1

theorem generateBlockSlotCopy_named {reads : Reads} {blockId : String}
    {answer : Option BlockSlotCopy} {run : AIRun}
    (h : generateBlockSlotCopy env reads planId model blockId (promptOf prompt) answer cost =
      .ok run) : Named run := by
  unfold generateBlockSlotCopy at h
  split at h
  · cases h
  next context hcontext =>
  split at h
  · cases h
  split at h
  · cases h
  · cases h
  · cases h
  · cases h
  split at h
  · cases h
  cases h
  exact answeredRun_named (prepareDraftContext_eq_ok env hcontext).1

theorem reserveIntent_named {reads : Reads} {cost : Json} {made : AIRun × IntentContext}
    (h : reserveIntent env reads planId model (promptOf prompt) cost = .ok made) :
    Named made.1 := by
  unfold reserveIntent at h
  split at h
  · cases h
  next context hcontext =>
  split at h
  · cases h
  cases h
  have hnamed : Named (answeredRun .intentPageProposal .reserved context planId (promptOf prompt)
      .none ⟨cost, false⟩) := answeredRun_named (prepareDraftContext_eq_ok env hcontext).1
  exact ⟨hnamed.provider, hnamed.model, hnamed.prompt⟩

/-- A route that carries provenance is not that of the slots. -/
theorem carries_iff_route {route : Kind} (hroute : draft.route = route)
    (hother : route ≠ .blockSlotCopy) (h : CarriesProvenance draft) :
    CarriesProvenance draft ↔ draft.route ≠ .blockSlotCopy :=
  ⟨fun _ => by rw [hroute]; exact hother, fun _ => h⟩

/-- **One request.** It keeps the names of the runs, and each route writes as it always does. -/
theorem Sound.step (h : Sound st) {action : Action} (hstep : step env st action = some st') :
    Sound st' := by
  cases action with
  | seoBrief runId reads planId model prompt answer cost =>
    obtain ⟨run, hrun, hinsert⟩ := Option.bind_eq_some_iff.mp hstep
    exact h.insertRun (generateSeoBrief_named env (toOption_eq_some.mp hrun)) hinsert
  | blockSlotCopy runId reads planId model blockId prompt answer cost =>
    obtain ⟨run, hrun, hinsert⟩ := Option.bind_eq_some_iff.mp hstep
    exact h.insertRun (generateBlockSlotCopy_named env (toOption_eq_some.mp hrun)) hinsert
  | pageDraftCopy runId draftId reads planId model prompt answer tokens cost =>
    obtain ⟨made, hmade, hbind⟩ := Option.bind_eq_some_iff.mp hstep
    obtain ⟨st₁, hinsert, hdraft⟩ := Option.bind_eq_some_iff.mp hbind
    obtain ⟨hnamed, hroute, hcarries⟩ :=
      generateAiPageDraft_carries env (toOption_eq_some.mp hmade)
    have hsound := h.insertRun hnamed hinsert
    have hsame : st₁.drafts = st.drafts := by
      unfold State.insertRun at hinsert
      split at hinsert
      · cases hinsert
        rfl
      · cases hinsert
    split at hdraft
    · cases hdraft
      rw [← hsame]
      exact hsound.setDraft (carries_iff_route hroute (by decide) hcarries)
    · cases hdraft
  | intent runId reads planId model prompt cost =>
    obtain ⟨made, hmade, hinsert⟩ := Option.bind_eq_some_iff.mp hstep
    exact h.insertRun (reserveIntent_named env (toOption_eq_some.mp hmade)) hinsert
  | execute runId compiled connection model answer cost =>
    obtain ⟨run, hrun, rfl⟩ := Option.map_eq_some_iff.mp hstep
    obtain ⟨hrunOf, hready⟩ := Option.filter_eq_some_iff.mp hrun
    have hmodel := (of_decide_eq_true hready).2
    exact h.setRun (executeIntent_named env (State.runOf_named h hrunOf) hmodel)
  | decide runId decision =>
    obtain ⟨run, hrun, hmap⟩ := Option.bind_eq_some_iff.mp hstep
    obtain ⟨decided, hdecided, rfl⟩ := Option.map_eq_some_iff.mp hmap
    exact h.setRun (decideAiRun_named (h.runs runId run hrun) (toOption_eq_some.mp hdecided))
  | draftFromBrief runId draftId reads =>
    obtain ⟨run, hrun, hbind⟩ := Option.bind_eq_some_iff.mp hstep
    obtain ⟨draft, hdraft, hinsert⟩ := Option.bind_eq_some_iff.mp hbind
    have hnamed := State.runOf_named h hrun
    obtain ⟨hroute, hcarries⟩ :=
      createDraftFromSeoBrief_carries env hnamed (toOption_eq_some.mp hdraft)
    exact h.insertDraft hnamed (carries_iff_route hroute (by decide) hcarries) hinsert
  | draftFromSlots runId draftId reads =>
    obtain ⟨run, hrun, hbind⟩ := Option.bind_eq_some_iff.mp hstep
    obtain ⟨draft, hdraft, hinsert⟩ := Option.bind_eq_some_iff.mp hbind
    obtain ⟨hroute, hbare⟩ :=
      createDraftFromBlockSlotProposal_bare env (toOption_eq_some.mp hdraft)
    exact h.insertDraft (State.runOf_named h hrun)
      ⟨fun hcarries => absurd hcarries hbare, fun hother => absurd hroute hother⟩ hinsert
  | materialize runId draftId reads =>
    obtain ⟨run, hrun, hbind⟩ := Option.bind_eq_some_iff.mp hstep
    split at hbind
    · obtain ⟨draft, hdraft, hinsert⟩ := Option.bind_eq_some_iff.mp hbind
      have hnamed := State.runOf_named h hrun
      obtain ⟨hroute, hcarries⟩ :=
        materializeIntentPageDraft_carries env hnamed (toOption_eq_some.mp hdraft)
      exact h.insertDraft hnamed (carries_iff_route hroute (by decide) hcarries) hinsert
    · cases hbind

theorem exec_sound {actions : List Action} (h : exec (step env) start actions = some st) :
    Sound st :=
  exec_invariant (G := fun _ _ _ => True) (fun _ _ _ hs _ hstep => hs.step env hstep) sound_start
    (along_of_forall (fun _ _ => trivial) _) h

/-- **Provenance, except for slots.** In every state of every run, the drafts that QA does not block
for their provenance are those that do not come from the slots of a block. -/
theorem provenance_iff {actions : List Action} {st : State}
    (h : exec (step env) start actions = some st) {draftId : DraftId} {draft : Draft}
    (hdraft : st.drafts.get draftId = some draft) :
    CarriesProvenance draft ↔ draft.route ≠ .blockSlotCopy :=
  (exec_sound env h).drafts draftId draft hdraft

/-! ## A page of the home repair kit -/

def demoEnv : Env where
  package := PagePlans.Claims.homeRepair
  kits := fun _ => some PagePlans.Claims.guaranteeKit
  str := fun _ => ""
  lower := fun text => text
  classes := Redaction.asciiClasses

def demoPlan : PagePlan :=
  { PagePlans.Claims.guaranteePlan with
    state := .approved
    factRevisionId := some 1 }

def demoConnection : ProviderConnection := ⟨"openai", ["gpt"], by decide⟩

def demoReads : Reads where
  project := [("name", .str "Ремонт")]
  domain := some "example.ru"
  plan := fun id => if id = 1 then some demoPlan else none
  facts := fun id => if id = 1 then some ⟨PagePlans.Claims.guaranteeFacts, "f1"⟩ else none
  connection := some demoConnection
  design := none
  refusal := none

def demoPrompt : PromptAsset × Option PromptRevision :=
  (⟨"content.prompt", "1.0.0", "Текст", by decide, by decide⟩, none)

def demoCost : Cost := ⟨.float "0.01", false⟩

def demoSlots : BlockSlotCopy where
  blockId := "hero"
  slots := [("unique_core", some "Ремонт квартир"), ("hero_supporting_text", none)]
  factKeys := ["service"]
  warnings := []

/-- The texts for the slots of the hero are generated, approved and taken over. -/
def slotActions : List Action :=
  [.blockSlotCopy 1 demoReads 1 "gpt" "hero" demoPrompt (some demoSlots) demoCost,
    .decide 1 .approve, .draftFromSlots 1 1 demoReads]

def demoBrief : SeoBrief where
  title := "Ремонт квартир"
  description := "Ремонт квартир в городе"
  h1 := "Ремонт"
  canonicalPath := "/remont"
  robots := .index
  keywordIds := []
  factKeys := ["service"]
  structuredDataTypes := []
  uncertaintyNotes := []

def briefActions : List Action :=
  [.seoBrief 1 demoReads 1 "gpt" demoPrompt (some demoBrief) demoCost, .decide 1 .approve,
    .draftFromBrief 1 1 demoReads]

theorem slots_made : (exec (step demoEnv) start slotActions).any (fun st =>
    (st.drafts.get 1).any (fun draft => decide (draft.route = .blockSlotCopy))) = true := by
  decide +kernel

theorem brief_made : (exec (step demoEnv) start briefActions).any (fun st =>
    (st.drafts.get 1).any (fun draft => decide (draft.route = .seoBrief))) = true := by
  decide +kernel

theorem brief_draft_carries :
    ∃ st draft, exec (step demoEnv) start briefActions = some st ∧ st.drafts.get 1 = some draft ∧
      CarriesProvenance draft := by
  obtain ⟨st, hst, hany⟩ := (Option.any_eq_true _ _).mp brief_made
  obtain ⟨draft, hdraft, hroute⟩ := (Option.any_eq_true _ _).mp hany
  refine ⟨st, draft, hst, hdraft, (provenance_iff demoEnv hst hdraft).mpr ?_⟩
  rw [of_decide_eq_true hroute]
  decide

/-- The draft with the texts for the hero is blocked. -/
theorem slots_draft_blocked :
    ∃ st draft, exec (step demoEnv) start slotActions = some st ∧ st.drafts.get 1 = some draft ∧
      ¬ CarriesProvenance draft := by
  obtain ⟨st, hst, hany⟩ := (Option.any_eq_true _ _).mp slots_made
  obtain ⟨draft, hdraft, hroute⟩ := (Option.any_eq_true _ _).mp hany
  refine ⟨st, draft, hst, hdraft, fun hcarries => ?_⟩
  exact ((exec_sound demoEnv hst).drafts 1 draft hdraft).mp hcarries (of_decide_eq_true hroute)

end MegaPanel.AiContent

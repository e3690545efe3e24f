import MegaPanel.Lib.Run
import MegaPanel.PagePlans.Drafts

set_option autoImplicit false

/-! # The place of a page

An application merges the place of its plan and the service of its facts into the context of the
site, and a candidate build renders all pages with that one context. So a page shows the place of
the page that was applied last. Whatever the templates of the pages are, each shows its own place
and service exactly when all pages of the site were applied with those of the last one
(`own_places`).
-/

namespace MegaPanel.PagePlans

open MegaPanel.Lib
open MegaPanel.BulkEdit (truthy)
open MegaPanel.Rendering (Value Dict fillSlots normalizePhoneE164 formatPhoneDisplay pageUrl
  renderPage)

namespace Places

/-- What the rendering gets besides the manifest: `sanitize_html`, `str` of a value that is not a
text, the URLs of the media in the page and in its schema, and what the build adds to the
context. -/
structure Env where
  sanitize : String → String
  str : Json → String
  mediaUrls : Dict String
  schemaMediaUrls : Dict String
  leadToken : String
  telemetryToken : String
  telemetryRetention : List (String × Json)
  captcha : List (String × Json)
  siteId : String

variable (env : Env)

/-! ## The context of a build -/

/-- `str(value)` -/
def strOf (v : Json) : String :=
  match v with
  | .str text => text
  | v => env.str v

/-- The value, as far as a template is filled from it. -/
def valueOf (v : Json) : Value :=
  match v with
  | .null => .none
  | .str text => .str text
  | v => .other (truthy v) (env.str v)

def toDict (entries : List (String × Json)) : Dict Value :=
  entries.map (fun e => (e.1, valueOf env e.2))

/-- `str(contacts.get("phone") or "")` -/
def phoneText (contacts : List (String × Json)) : String :=
  ((Json.get? contacts "phone").filter truthy).elim "" (strOf env)

/-- What the build adds to the context of the frozen manifest. -/
def buildEntries (manifest : SiteManifest) : List (String × Json) :=
  [("phone", .str (phoneText env manifest.contacts)), ("lead_token", .str env.leadToken),
    ("lead_api_url", .str "/api/v1/leads/public"), ("telemetry_token", .str env.telemetryToken),
    ("telemetry_retention", .dict env.telemetryRetention), ("captcha", .dict env.captcha),
    ("site_id", .str env.siteId)]

/-- The context with which `SiteBuilder.build` renders each page of the frozen manifest. -/
def buildContext (manifest : SiteManifest) : List (String × Json) :=
  Json.merge manifest.context (buildEntries env manifest)

def siteOf (manifest : SiteManifest) : Rendering.SiteManifest where
  domain := manifest.domain
  locale := manifest.locale
  cssVars := manifest.cssVars
  branding := manifest.branding
  contacts := toDict env manifest.contacts

/-! ## The schema of a page -/

/-- What a template is filled from, by `context.get`. -/
def slots (get : String → Option Json) : Rendering.Context := fun key =>
  (get key).map (valueOf env)

/-- The questions of a list with their answers, at most twelve. -/
def faqEntries (fill : String → String) (items : List Json) : List (String × String) :=
  (items.take 12).filterMap (fun item => match item with
    | .dict entries =>
      match (Json.get? entries "q").filter truthy, (Json.get? entries "a").filter truthy with
      | some q, some a => some (fill (strOf env q), fill (strOf env a))
      | _, _ => none
    | _ => none)

def itemsOf (v : Option Json) : List Json :=
  match v with
  | some (.list items) => items
  | _ => []

/-- The questions of a page without any. -/
def defaultFaq (page : PageManifest) (get : String → Option Json) : List (String × String) :=
  let city := (((get "city_prep").filter truthy).or ((get "city_nom").filter truthy)).elim ""
    (strOf env)
  let service := if page.service = "" then "услуга" else page.service
  [(if city = "" then "Сколько стоит " ++ service ++ "?"
      else "Сколько стоит " ++ service ++ " в " ++ city ++ "?",
    "Стоимость " ++ service ++ " зависит от объёма работ. " ++
      "Оставьте заявку, чтобы уточнить условия."),
    ("Как быстро выполнить " ++ service ++ "?",
      "Сроки зависят от задачи. Точные условия согласуем после уточнения деталей.")]

/-- `_extract_faq` -/
def extractFaq (page : PageManifest) (get : String → Option Json) : List (String × String) :=
  let custom := faqEntries env id (itemsOf page.customFaq)
  let ofBlock :=
    if page.blocks.any (fun block => block.type == "faq") then
      faqEntries env (fun text => fillSlots text (slots env get)) (itemsOf page.faqItems)
    else []
  if custom ≠ [] then custom else if ofBlock ≠ [] then ofBlock else defaultFaq env page get

/-- `schema_org_jsonld`, by `context.get` -/
def schemaOrgJsonld (manifest : SiteManifest) (page : PageManifest) (get : String → Option Json) :
    Json :=
  let fill := fun template => fillSlots template (slots env get)
  let cityNom := (get "city_nom").getD (.str "")
  let phone := strOf env (((get "phone").filter truthy).getD
    ((Json.get? manifest.contacts "phone").getD (.str "")))
  let pageAddress := pageUrl manifest.domain page.slug
  let home := pageUrl manifest.domain "/"
  let business :=
    .dict [("@type", .str "LocalBusiness"),
      ("name", .str (if fill page.h1Template = "" then manifest.domain else fill page.h1Template)),
      ("url", .str home),
      ("telephone", .str ((normalizePhoneE164 phone).getD (formatPhoneDisplay phone))),
      ("address", .dict [("@type", .str "PostalAddress"), ("addressLocality", cityNom)])]
  let service :=
    .dict [("@type", .str "Service"), ("name", .str page.service), ("areaServed", cityNom)]
  let crumbs :=
    .dict [("@type", .str "BreadcrumbList"), ("itemListElement", .list
      [.dict [("@type", .str "ListItem"), ("position", .int 1), ("name", .str "Главная"),
         ("item", .str home)],
       .dict [("@type", .str "ListItem"), ("position", .int 2),
         ("name", .str (fill page.h1Template)), ("item", .str pageAddress)]])]
  let authored := page.author.elim [] (fun author =>
    let authorId := pageAddress ++ "#author-" ++ author.slug
    let portrait := (Rendering.mediaUrl env.schemaMediaUrls author.portrait.assetId).toList
    [.dict ([("@id", .str authorId), ("@type", .str "Person"), ("name", .str author.name),
       ("jobTitle", .str author.role), ("description", .str author.biography),
       ("knowsAbout", .list (author.expertise.map .str))] ++
         portrait.map (fun url => ("image", .str url))),
     .dict [("@type", .str "WebPage"), ("url", .str pageAddress),
       ("name", .str (fill page.h1Template)), ("author", .dict [("@id", .str authorId)])]])
  let question := fun qa : String × String =>
    Json.dict [("@type", .str "Question"), ("name", .str qa.1),
      ("acceptedAnswer", .dict [("@type", .str "Answer"), ("text", .str qa.2)])]
  let faq := .dict [("@type", .str "FAQPage"),
    ("mainEntity", .list ((extractFaq env page get).map question))]
  .dict [("@context", .str "https://schema.org"),
    ("@graph", .list (business :: service :: crumbs :: (authored ++ [faq])))]

/-! ## Applications and what they leave -/

/-- An application of a page, with what it has read. -/
structure Applied where
  inputs : ApplyInputs
  domain : String
  values : List (String × Json)
  geo : List (String × Json)
  page : PageManifest

/-- The service and the place of the page. -/
def Applied.own (a : Applied) : List (String × Json) := placeContext a.values a.geo

/-- An application that commits. -/
def step (site : Option SiteManifest) (a : Applied) : Option (Option SiteManifest) :=
  match applyManifest a.inputs a.domain a.values a.geo a.page site with
  | .ok manifest => some (some manifest)
  | .error _ => none

/-- The applications whose pages are on the site: a later one of the same slug replaces an earlier
one. -/
def shown (history : List Applied) : List Applied :=
  history.foldl
    (fun shown a => shown.filter (fun b => decide (b.page.slug ≠ a.page.slug)) ++ [a]) []

/-- The page, as the build renders it, is that with its own service and place. -/
structure RenderedOwn (manifest : SiteManifest) (a : Applied) : Prop where
  html : renderPage env.sanitize (siteOf env manifest) a.page.toPageManifest
      (toDict env (buildContext env manifest)) env.mediaUrls =
    renderPage env.sanitize (siteOf env manifest) a.page.toPageManifest
      (toDict env (Json.merge (buildContext env manifest) a.own)) env.mediaUrls
  schema : schemaOrgJsonld env manifest a.page (Json.get? (buildContext env manifest)) =
    schemaOrgJsonld env manifest a.page (Json.get? (Json.merge (buildContext env manifest) a.own))

/-- Every page of the site, as it stands after the applications, is rendered with its own place. -/
def OwnPlaces (history : List Applied) : Prop :=
  ∀ manifest, exec step none history = some (some manifest) →
    manifest.pages = (shown history).map (·.page) ∧
      ∀ a ∈ shown history, RenderedOwn env manifest a

/-- The same applications of pages with other texts. -/
def retext (f : PageManifest → PageManifest) (a : Applied) : Applied := { a with page := f a.page }

/-- Other texts: slug and design are those of the page. -/
def KeepsPlace (f : PageManifest → PageManifest) : Prop :=
  ∀ page, (f page).slug = page.slug ∧ (f page).design = page.design

/-- All pages of the site have the service and the place of the last application. -/
def OnePlace (history : List Applied) : Prop :=
  ∀ a ∈ shown history, ∀ last, history.getLast? = some last → a.own = last.own

/-! ## What a run of applications leaves -/

variable {site t : Option SiteManifest} {a last : Applied} {history : List Applied}
  {manifest : SiteManifest}

theorem step_eq_some (h : step site a = some t) : ∃ manifest, t = some manifest ∧
      applyManifest a.inputs a.domain a.values a.geo a.page site = .ok manifest := by
  unfold step at h
  split at h
  · next manifest hmanifest =>
    cases h
    exact ⟨manifest, rfl, hmanifest⟩
  · cases h

/-- The pages of a site that may not be there yet. -/
def pagesOf (site : Option SiteManifest) : List PageManifest := site.elim [] (·.pages)

theorem step_pages (h : step site a = some t) :
    pagesOf t =
      (pagesOf site).filter (fun page => decide (page.slug ≠ a.page.slug)) ++ [a.page] := by
  obtain ⟨manifest, rfl, hmanifest⟩ := step_eq_some h
  cases site with
  | none =>
    cases hmanifest
    rfl
  | some old =>
    unfold applyManifest at hmanifest
    dsimp only at hmanifest
    split at hmanifest
    · cases hmanifest
    cases hmanifest
    rfl

theorem shown_append (history : List Applied) (a : Applied) :
    shown (history ++ [a]) =
      (shown history).filter (fun b => decide (b.page.slug ≠ a.page.slug)) ++ [a] := by
  unfold shown
  rw [List.foldl_append]
  rfl

theorem exec_pages (h : exec step none history = some site) :
    pagesOf site = (shown history).map (·.page) := by
  induction history using List.reverseRecOn generalizing site with
  | nil =>
    cases h
    rfl
  | append_singleton init a ih =>
    rw [exec_append] at h
    obtain ⟨before, hbefore, hlast⟩ := Option.bind_eq_some_iff.mp h
    rw [exec_cons] at hlast
    obtain ⟨after, hstep, hnil⟩ := Option.bind_eq_some_iff.mp hlast
    cases hnil
    rw [step_pages hstep, ih hbefore, shown_append, List.map_append, List.filter_map]
    rfl

/-- The context of the site is that of the last application. -/
theorem exec_context (h : exec step none history = some (some manifest))
    (hlast : history.getLast? = some last) :
    ∀ e ∈ last.own, Json.get? manifest.context e.1 = some e.2 := by
  obtain ⟨init, rfl⟩ := List.getLast?_eq_some_iff.mp hlast
  rw [exec_append] at h
  obtain ⟨before, -, hexec⟩ := Option.bind_eq_some_iff.mp h
  rw [exec_cons] at hexec
  obtain ⟨after, hstep, hnil⟩ := Option.bind_eq_some_iff.mp hexec
  cases hnil
  obtain ⟨_, heq, hmanifest⟩ := step_eq_some hstep
  cases heq
  intro e he
  exact (applyManifest_spec hmanifest).2 e (List.mem_append_right _ he)

/-! ## Contexts that agree -/

variable {key : String} {e : String × Json}

theorem mem_of_get? {entries : List (String × Json)} {v : Json}
    (h : Json.get? entries key = some v) : (key, v) ∈ entries := by
  obtain ⟨e, he, rfl⟩ := Option.map_eq_some_iff.mp h
  have hfound := List.find?_some he
  have hkey : e.1 = key := of_decide_eq_true hfound
  rw [← hkey]
  exact List.mem_of_find?_eq_some he

theorem lookup_toDict (entries : List (String × Json)) (key : String) :
    (toDict env entries).lookup key = (Json.get? entries key).map (valueOf env) := by
  induction entries with
  | nil => rfl
  | cons e rest ih =>
    by_cases hkey : e.1 = key
    · rw [← hkey, Json.get?_cons_self]
      exact List.lookup_cons_self
    · have hne : (key == e.1) = false := beq_eq_false_iff_ne.mpr (Ne.symm hkey)
      rw [Json.get?_cons_ne hkey, ← ih, toDict, List.map_cons, List.lookup_cons, hne]
      rfl

/-- A page is rendered from what the context has for each key. -/
theorem renderPage_congr {sanitize : String → String} {site : Rendering.SiteManifest}
    {page : Rendering.PageManifest} {context context' : Dict Value} {mediaUrls : Dict String}
    (h : ∀ key, context.lookup key = context'.lookup key) :
    renderPage sanitize site page context mediaUrls =
      renderPage sanitize site page context' mediaUrls := by
  have hmerged : Rendering.mergedContext site context = Rendering.mergedContext site context' := by
    funext key
    rw [Rendering.mergedContext, Rendering.mergedContext, h key]
  have hpage : Rendering.pageContext site context = Rendering.pageContext site context' := by
    funext key
    rw [Rendering.pageContext, Rendering.pageContext, hmerged]
  unfold renderPage
  rw [hpage]

theorem mem_own_key (he : e ∈ a.own) :
    e.1 ∈ ["service", "city_nom", "city_gen", "city_prep", "city_dat"] := by
  rw [← placeContext_keys a.values a.geo]
  exact List.mem_map_of_mem he

theorem buildContext_own (he : e ∈ a.own) : Json.get? (buildContext env manifest) e.1 =
      Json.get? manifest.context e.1 := by
  have hkey := mem_own_key he
  refine Json.get?_merge_of_none ?_ manifest.context
  simp only [List.mem_cons, List.not_mem_nil, or_false] at hkey
  rcases hkey with h | h | h | h | h <;> rw [h] <;> rfl

/-- The five values of a page, taken over into a context that has them. -/
theorem get?_merge_own {context : List (String × Json)}
    (h : ∀ e ∈ a.own, Json.get? context e.1 = some e.2) :
    Json.get? (Json.merge context a.own) = Json.get? context := by
  have hkeys : (a.own.map (·.1)).Nodup := placeContext_nodup a.values a.geo
  funext key
  rw [Json.get?_merge hkeys]
  cases hget : Json.get? a.own key with
  | none =>
    rw [Option.none_or]
  | some v =>
    rw [Option.some_or, h (key, v) (mem_of_get? hget)]

theorem renderedOwn_of_context (h : ∀ e ∈ a.own, Json.get? manifest.context e.1 = some e.2) :
    RenderedOwn env manifest a := by
  have hget : Json.get? (Json.merge (buildContext env manifest) a.own) =
      Json.get? (buildContext env manifest) :=
    get?_merge_own (fun e he => (buildContext_own env he).trans (h e he))
  constructor
  · refine renderPage_congr (fun key => ?_)
    rw [lookup_toDict, lookup_toDict, hget]
  · rw [hget]

/-! ## Pages with other texts -/

variable {env}

def mapPages (f : PageManifest → PageManifest) (manifest : SiteManifest) : SiteManifest :=
  { manifest with pages := manifest.pages.map f }

variable {f : PageManifest → PageManifest}

theorem applyManifest_retext (hf : KeepsPlace f) (a : Applied) (site : Option SiteManifest) :
    applyManifest a.inputs a.domain a.values a.geo (f a.page) (site.map (mapPages f)) =
      (applyManifest a.inputs a.domain a.values a.geo a.page site).map (mapPages f) := by
  obtain ⟨hslug, hdesign⟩ := hf a.page
  cases site with
  | none =>
    rw [Option.map_none, applyManifest, applyManifest, hdesign]
    rfl
  | some old =>
    have hdiffer : designsDiffer (mapPages f old) (f a.page) = designsDiffer old a.page := by
      rw [designsDiffer, designsDiffer, hdesign]
      rfl
    have hpages : (old.pages.map f).filter (fun page => decide (page.slug ≠ (f a.page).slug)) =
        (old.pages.filter (fun page => decide (page.slug ≠ a.page.slug))).map f := by
      rw [List.filter_map, hslug]
      congr 1
      refine List.filter_congr (fun page _ => ?_)
      rw [Function.comp_apply, (hf page).1]
    rw [Option.map_some, applyManifest, applyManifest, hdiffer]
    split
    · rfl
    show Except.ok _ = Except.ok _
    rw [mapPages, hdesign, hpages, ← List.map_singleton, ← List.map_append]
    rfl

theorem step_retext (hf : KeepsPlace f) (a : Applied) (site : Option SiteManifest) :
    step (site.map (mapPages f)) (retext f a) = (step site a).map (Option.map (mapPages f)) := by
  have happly := applyManifest_retext hf a site
  unfold step retext
  dsimp only
  rw [happly]
  cases applyManifest a.inputs a.domain a.values a.geo a.page site with
  | error e | ok manifest => rfl

theorem exec_retext (hf : KeepsPlace f) (history : List Applied) (site : Option SiteManifest) :
    exec step (site.map (mapPages f)) (history.map (retext f)) =
      (exec step site history).map (Option.map (mapPages f)) := by
  induction history generalizing site with
  | nil => rfl
  | cons a rest ih =>
    rw [List.map_cons, exec_cons, exec_cons, step_retext hf]
    cases step site a with
    | none => rfl
    | some next => exact ih next

theorem shown_retext (hf : KeepsPlace f) (history : List Applied) :
    shown (history.map (retext f)) = (shown history).map (retext f) := by
  induction history using List.reverseRecOn with
  | nil => rfl
  | append_singleton init a ih =>
    rw [List.map_append, List.map_singleton, shown_append, shown_append, ih, List.map_append,
      List.filter_map]
    congr 2
    refine List.filter_congr (fun b _ => ?_)
    show decide ((f b.page).slug ≠ (f a.page).slug) = _
    rw [(hf b.page).1, (hf a.page).1]

/-! ## Pages with the place of the last one -/

variable {b : Applied}

/-- A page that is rendered as its own has the same heading either way. -/
theorem RenderedOwn.heading (h : RenderedOwn env manifest a) :
    fillSlots a.page.h1Template (slots env (Json.get? (buildContext env manifest))) =
      fillSlots a.page.h1Template
        (slots env (Json.get? (Json.merge (buildContext env manifest) a.own))) := by
  have hschema := h.schema
  unfold schemaOrgJsonld at hschema
  simp only [Json.dict.injEq, List.cons.injEq, Prod.mk.injEq, Json.list.injEq, Json.str.injEq,
    true_and, and_true] at hschema
  exact hschema.2.2.1

/-- A template that is one slot. -/
def slotTemplate (key : String) : String := "\x7b" ++ key ++ "\x7d"

theorem fillSlots_slotTemplate (env : Env)
    (hkey : key ∈ ["service", "city_nom", "city_gen", "city_prep", "city_dat"])
    {get : String → Option Json} {text : String} (hget : get key = some (.str text)) :
    fillSlots (slotTemplate key) (slots env get) = text := by
  have htokens : Rendering.tokens (slotTemplate key) = [.slot key] := by
    simp only [List.mem_cons, List.not_mem_nil, or_false] at hkey
    rcases hkey with rfl | rfl | rfl | rfl | rfl <;> rfl
  rw [fillSlots, htokens]
  simp [Rendering.fillToken, slots, hget, valueOf, Rendering.slotText]

/-- The values of a place are texts. -/
theorem own_str (he : e ∈ a.own) : ∃ text, e.2 = .str text := by
  simp only [Applied.own, placeContext, List.mem_cons, List.not_mem_nil, or_false] at he
  rcases he with rfl | rfl | rfl | rfl | rfl <;> exact ⟨_, rfl⟩

/-- Two places with the same values at each key are the same. -/
theorem own_ext (h : ∀ e ∈ a.own, Json.get? b.own e.1 = some e.2) : a.own = b.own := by
  simp only [Applied.own, placeContext, List.mem_cons, List.not_mem_nil, or_false,
    forall_eq_or_imp, forall_eq] at h
  obtain ⟨h₁, h₂, h₃, h₄, h₅⟩ := h
  simp [Json.get?] at h₁ h₂ h₃ h₄ h₅
  simp [Applied.own, placeContext, h₁, h₂, h₃, h₄, h₅]

/-- Every place has a value at the keys of another one. -/
theorem own_get (he : e ∈ a.own) : ∃ v, Json.get? b.own e.1 = some v := by
  have hkey := mem_own_key he
  rw [← placeContext_keys b.values b.geo] at hkey
  obtain ⟨e', he', heq⟩ := List.mem_map.mp hkey
  have hkeys : (b.own.map (·.1)).Nodup := placeContext_nodup b.values b.geo
  exact ⟨e'.2, by rw [← heq]; exact get?_of_mem hkeys he'⟩

theorem exec_of_getLast (h : (exec step none history).isSome = true)
    (hlast : history.getLast? = some last) :
    ∃ manifest, exec step none history = some (some manifest) := by
  obtain ⟨init, rfl⟩ := List.getLast?_eq_some_iff.mp hlast
  obtain ⟨site, hexec⟩ := Option.isSome_iff_exists.mp h
  rw [hexec]
  rw [exec_append] at hexec
  obtain ⟨before, -, hstep⟩ := Option.bind_eq_some_iff.mp hexec
  rw [exec_cons] at hstep
  obtain ⟨after, hstep, hnil⟩ := Option.bind_eq_some_iff.mp hstep
  cases hnil
  obtain ⟨manifest, rfl, -⟩ := step_eq_some hstep
  exact ⟨manifest, rfl⟩

/-- **A page shows its own place.** For applications that commit: whatever the texts of the pages,
every page of the site is rendered with its own service and place exactly if all of them were
applied with the service and the place of the last one. -/
theorem own_places (env : Env) (history : List Applied)
    (hcommits : (exec step none history).isSome = true) :
    (∀ f, KeepsPlace f → OwnPlaces env (history.map (retext f))) ↔ OnePlace history := by
  constructor
  · intro hall a ha last hlast
    obtain ⟨manifest, hexec⟩ := exec_of_getLast hcommits hlast
    refine own_ext (fun e he => ?_)
    -- all pages get the heading that shows the value of this key
    let f : PageManifest → PageManifest := fun page => { page with h1Template := slotTemplate e.1 }
    have hf : KeepsPlace f := fun page => ⟨rfl, rfl⟩
    have hexec' : exec step none (history.map (retext f)) = some (some (mapPages f manifest)) := by
      have hretext := exec_retext hf history none
      rw [hexec] at hretext
      exact hretext
    have hmem : retext f a ∈ shown (history.map (retext f)) := by
      rw [shown_retext hf]
      exact List.mem_map_of_mem ha
    have hheading := ((hall f hf _ hexec').2 _ hmem).heading
    obtain ⟨v, hv⟩ := own_get (b := last) he
    have hcontext : Json.get? (buildContext env manifest) e.1 = some v :=
      (buildContext_own env he).trans (exec_context hexec hlast _ (mem_of_get? hv))
    obtain ⟨text, htext⟩ := own_str he
    obtain ⟨text', rfl⟩ := own_str (mem_of_get? hv)
    have hown : Json.get? (Json.merge (buildContext env manifest) a.own) e.1 = some e.2 := by
      have hkeys : (a.own.map (·.1)).Nodup := placeContext_nodup a.values a.geo
      rw [Json.get?_merge hkeys, get?_of_mem hkeys he, Option.some_or]
    rw [htext] at hown ⊢
    have hleft := fillSlots_slotTemplate env (mem_own_key he) hcontext
    have hright := fillSlots_slotTemplate env (mem_own_key he) hown
    rw [hv, ← hleft, ← hright]
    exact congrArg (fun text => some (Json.str text)) hheading
  · intro hone f hf manifest hexec
    refine ⟨exec_pages hexec, fun b hb => ?_⟩
    rw [shown_retext hf] at hb
    obtain ⟨a, ha, rfl⟩ := List.mem_map.mp hb
    obtain ⟨last, hlast⟩ : ∃ last, history.getLast? = some last := by
      refine Option.ne_none_iff_exists'.mp (fun hnone => ?_)
      rw [List.getLast?_eq_none_iff] at hnone
      rw [hnone] at ha
      cases ha
    have hlast' : (history.map (retext f)).getLast? = some (retext f last) := by
      rw [List.getLast?_map, hlast]
      rfl
    refine renderedOwn_of_context env (fun e he => ?_)
    have hown : (retext f a).own = (retext f last).own := hone a ha last hlast
    exact exec_context hexec hlast' e (hown ▸ he)

/-! ## Two cities on one site -/

def plainEnv : Env where
  sanitize := id
  str := fun _ => ""
  mediaUrls := []
  schemaMediaUrls := []
  leadToken := "token"
  telemetryToken := ""
  telemetryRetention := []
  captcha := []
  siteId := "site"

/-- The page of a city, with the templates of a generated draft. -/
def cityPage (slug : String) : PageManifest where
  slug := slug
  titleTemplate := "{service} в {city_prep} — {domain}"
  h1Template := "{service} в {city_prep}"
  metaDescriptionTemplate := ""
  blocks := []
  uniqueCore := none
  blockSlotValues := []
  media := []
  blockMedia := []
  author := none
  seed := 1
  service := "Ремонт"
  geoId := none
  design := none
  customFaq := none
  faqItems := none

def cityGeo (name prep : String) : List (String × Json) :=
  [("items", .list [.dict [("role", .str "primary"), ("name", .str name),
    ("forms", .dict [("prep", .str prep)])]])]

def applied (slug name prep : String) : Applied where
  inputs := ⟨"ru", none, none, []⟩
  domain := "example.ru"
  values := [("service", .str "Ремонт")]
  geo := cityGeo name prep
  page := cityPage slug

/-- Two pages of one city. -/
theorem own_places_one_city :
    OwnPlaces plainEnv ([applied "/" "Москва" "Москве", applied "/ceny" "Москва" "Москве"].map
      (retext (fun page => page))) := by
  refine (own_places plainEnv [applied "/" "Москва" "Москве", applied "/ceny" "Москва" "Москве"]
    (by decide +kernel)).mpr (fun a ha last hlast => ?_) (fun page => page) (fun _ => ⟨rfl, rfl⟩)
  cases hlast
  have hshown : shown [applied "/" "Москва" "Москве", applied "/ceny" "Москва" "Москве"] =
      [applied "/" "Москва" "Москве", applied "/ceny" "Москва" "Москве"] := rfl
  rw [hshown] at ha
  rcases List.mem_cons.mp ha with rfl | ha
  · rfl
  · rw [List.mem_singleton.mp ha]
    rfl

def twoCities : List Applied :=
  [applied "/moskva" "Москва" "Москве", applied "/tver" "Тверь" "Твери"]

/-- The page of the first city is rendered with the name of the second one. -/
theorem first_city_renamed :
    (exec step none twoCities).isSome = true ∧ ¬ OwnPlaces plainEnv twoCities := by
  have hrun : (exec step none twoCities).any (fun site => site.any (fun manifest =>
      decide (fillSlots (cityPage "/moskva").h1Template
          (slots plainEnv (Json.get? (buildContext plainEnv manifest))) = "Ремонт в Твери")
        && decide (fillSlots (cityPage "/moskva").h1Template
          (slots plainEnv (Json.get? (Json.merge (buildContext plainEnv manifest)
            (applied "/moskva" "Москва" "Москве").own))) = "Ремонт в Москве"))) = true := by
    decide +kernel
  obtain ⟨site, hexec, hsite⟩ := (Option.any_eq_true _ _).mp hrun
  obtain ⟨manifest, rfl, htexts⟩ := (Option.any_eq_true _ _).mp hsite
  obtain ⟨hbuilt, hown⟩ := Bool.and_eq_true_iff.mp htexts
  refine ⟨by rw [hexec]; rfl, fun hall => ?_⟩
  have hmem : applied "/moskva" "Москва" "Москве" ∈ shown twoCities := List.mem_cons_self ..
  have hheading := ((hall manifest hexec).2 _ hmem).heading
  have hsame : "Ремонт в Твери" = "Ремонт в Москве" :=
    (of_decide_eq_true hbuilt).symm.trans (hheading.trans (of_decide_eq_true hown))
  exact absurd hsame (by decide)

end Places

end MegaPanel.PagePlans

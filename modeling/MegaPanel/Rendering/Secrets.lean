import MegaPanel.Rendering.Templates
import Mathlib.Algebra.Order.BigOperators.Group.List

set_option autoImplicit false

/-! # Contacts that a page may show

The webhook of a site and its secret are stored among the contacts (`PROTECTED_CONTACT_FIELDS`).
`render_contacts` drops them where a site is created, but `render_page` merges all contacts
into the context, so a template that names one of the three fields prints it, unless the build
context has a value of its own under that name (`render_page_secrets`).

Both directions compare two runs. Where no template reads such a field, the two contexts agree
on every key that is read. For the other direction the fields are once empty and once
`"x"`: every part of the page is at least as long in the second run, and a template that reads
a field is longer.
-/

namespace MegaPanel.Rendering

open MegaPanel.Lib MegaPanel.Lib.Text

/-- `PROTECTED_CONTACT_FIELDS` -/
def protectedContactFields : List String := ["webhook_url", "webhook_secret", "webhook_secret_enc"]

/-- The keys that a template names. -/
def slots (template : String) : List String :=
  (tokens template).filterMap (fun token =>
    match token with
    | .char _ => none
    | .slot key => some key)

/-- The key is read from the protected contacts. -/
def Exposed (context : Dict Value) (key : String) : Prop :=
  key ∈ protectedContactFields ∧ context.lookup key = none

def ReadsSecret (context : Dict Value) (template : String) : Prop :=
  ∃ key ∈ slots template, Exposed context key

/-- The texts of a page that are filled. -/
def templates (page : PageManifest) : List String :=
  page.titleTemplate :: page.h1Template :: page.metaDescriptionTemplate ::
    page.blocks.map (·.html)

/-- The sites differ in nothing but the protected contacts. -/
def SameButSecrets (site site' : SiteManifest) : Prop :=
  site' = { site with contacts := site'.contacts } ∧
    ∀ key ∉ protectedContactFields, site'.contacts.lookup key = site.contacts.lookup key

/-- The page is the same for every value of the protected contacts. -/
def HidesSecrets (sanitize : String → String) (site : SiteManifest) (page : PageManifest)
    (context : Dict Value) (mediaUrls : Dict String) : Prop :=
  ∀ site', SameButSecrets site site' →
    renderPage sanitize site' page context mediaUrls = renderPage sanitize site page context mediaUrls

/-! ## Contexts -/

variable {template key : String} {ctx ctx' : Context} {site : SiteManifest} {context : Dict Value}
  {page : PageManifest} {block : BlockDef}

theorem mem_slots : key ∈ slots template ↔ .slot key ∈ tokens template := by
  rw [slots, List.mem_filterMap]
  constructor
  · rintro ⟨token, htoken, hkey⟩
    cases token with
    | char c => cases hkey
    | slot key' =>
      cases hkey
      exact htoken
  · intro h
    exact ⟨.slot key, h, rfl⟩

/-- A filled template depends on the keys that it names. -/
theorem fillSlots_congr (h : ∀ key ∈ slots template, ctx key = ctx' key) :
    fillSlots template ctx = fillSlots template ctx' := by
  have htokens : ∀ token ∈ tokens template, fillToken ctx token = fillToken ctx' token := by
    intro token htoken
    cases token with
    | char c => rfl
    | slot key => rw [fillToken, fillToken, h key (mem_slots.mpr htoken)]
  rw [fillSlots, fillSlots, List.flatMap_congr htokens]

/-- A key that is not read from the protected contacts has one value for both sites. -/
theorem pageContext_congr {site' : SiteManifest} (h : SameButSecrets site site')
    (hkey : ¬ Exposed context key) :
    pageContext site' context key = pageContext site context key := by
  obtain ⟨hsite, hcontacts⟩ := h
  have hmerged : ∀ key, ¬ Exposed context key →
      mergedContext site' context key = mergedContext site context key := by
    intro key hkey
    have hbase : site'.domain = site.domain ∧ site'.locale = site.locale := by
      rw [hsite]
      exact ⟨rfl, rfl⟩
    rw [mergedContext, mergedContext, hbase.1, hbase.2]
    by_cases hprotected : key ∈ protectedContactFields
    · cases hlookup : context.lookup key with
      | none => exact absurd ⟨hprotected, hlookup⟩ hkey
      | some value => rfl
    · rw [hcontacts key hprotected]
  have hphone : ¬ Exposed context "phone" := fun hexposed => absurd hexposed.1 (by decide)
  rw [pageContext, pageContext, hmerged key hkey, hmerged "phone" hphone]

theorem blockContext_congr (page : PageManifest) (block : BlockDef) (h : ctx key = ctx' key) :
    blockContext page ctx block key = blockContext page ctx' block key := by
  rw [blockContext, blockContext, slotValues, slotValues, h]

theorem mem_sortedBlocks :
    block ∈ sortedBlocks page ↔ block ∈ page.blocks := List.mem_insertionSort _

/-- **Templates that read no protected field show none.** -/
theorem hidesSecrets_of_not_reads (sanitize : String → String) (site : SiteManifest)
    (mediaUrls : Dict String) (h : ∀ template ∈ templates page, ¬ ReadsSecret context template) :
    HidesSecrets sanitize site page context mediaUrls := by
  intro site' hsame
  have hfill : ∀ template ∈ templates page, fillSlots template (pageContext site' context)
      = fillSlots template (pageContext site context) := fun template htemplate =>
    fillSlots_congr (fun key hkey =>
      pageContext_congr hsame (fun hexposed => h template htemplate ⟨key, hkey, hexposed⟩))
  have hblocks : ∀ block ∈ sortedBlocks page,
      blockHtml sanitize page (pageContext site' context) block
        = blockHtml sanitize page (pageContext site context) block := by
    intro block hblock
    have htemplate : block.html ∈ templates page := by
      simp only [templates, List.mem_cons, List.mem_map]
      exact Or.inr (Or.inr (Or.inr ⟨block, mem_sortedBlocks.mp hblock, rfl⟩))
    exact congrArg sanitize (fillSlots_congr (fun key hkey => blockContext_congr page block
      (pageContext_congr hsame (fun hexposed => h block.html htemplate ⟨key, hkey, hexposed⟩))))
  have hhtmls := List.map_congr_left hblocks
  have hH1 := congrArg (fun htmls : List String => htmls.any containsH1) hhtmls
  simp only [List.any_map, Function.comp_def] at hH1
  have hparts := List.flatMap_congr (fun block hblock =>
    congrArg (blockParts page mediaUrls block) (hblocks block hblock))
  have htitle := hfill page.titleTemplate (by simp [templates])
  have hh1 := hfill page.h1Template (by simp [templates])
  have hmeta := hfill page.metaDescriptionTemplate (by simp [templates])
  obtain ⟨contacts, rfl⟩ : ∃ contacts, site' = { site with contacts := contacts } :=
    ⟨_, hsame.1⟩
  simp only [renderPage, htitle, hh1, hmeta, hH1, hparts]
  rfl

/-! ## Two values of the secrets -/

variable {text : String}

/-- The site with this text in each of the protected contacts. -/
def withSecrets (site : SiteManifest) (text : String) : SiteManifest :=
  { site with
    contacts := protectedContactFields.map (fun key => (key, .str text)) ++
      site.contacts.filter (fun e => e.1 ∉ protectedContactFields) }

theorem lookup_withSecrets (h : key ∈ protectedContactFields) :
    (withSecrets site text).contacts.lookup key = some (.str text) := by
  simp only [protectedContactFields, List.mem_cons, List.not_mem_nil, or_false] at h
  rcases h with rfl | rfl | rfl <;> rfl

theorem sameButSecrets_withSecrets (site : SiteManifest) (text : String) :
    SameButSecrets site (withSecrets site text) := by
  refine ⟨rfl, fun key hkey => ?_⟩
  have hfilter : ∀ contacts : Dict Value,
      (contacts.filter (fun e => e.1 ∉ protectedContactFields)).lookup key
        = contacts.lookup key := by
    intro contacts
    induction contacts with
    | nil => rfl
    | cons e contacts ih =>
      obtain ⟨key', value⟩ := e
      by_cases hprotected : key' ∈ protectedContactFields
      · have hne : key ≠ key' := fun heq => hkey (heq ▸ hprotected)
        rw [List.filter_cons_of_neg (by simpa using hprotected), ih, List.lookup_cons,
          beq_eq_false_iff_ne.mpr hne]
      · rw [List.filter_cons_of_pos (by simpa using hprotected), List.lookup_cons,
          List.lookup_cons, ih]
  have hnone : (protectedContactFields.map (fun key => (key, Value.str text))).lookup key
      = none := by
    rw [List.lookup_eq_none_iff]
    intro e he
    obtain ⟨key', hkey', rfl⟩ := List.mem_map.mp he
    have hne : key ≠ key' := by
      rintro rfl
      exact hkey hkey'
    exact bne_iff_ne.mpr hne
  rw [withSecrets, List.lookup_append, hnone, Option.none_or, hfilter]

/-- The two contexts hold an empty text and `"x"` under the exposed keys, and agree elsewhere. -/
def Widens (context : Dict Value) (ctx ctx' : Context) : Prop :=
  ∀ key, (¬ Exposed context key → ctx' key = ctx key) ∧
    (Exposed context key → ctx key = some (.str "") ∧ ctx' key = some (.str "x"))

theorem pageContext_exposed (h : Exposed context key) :
    pageContext (withSecrets site text) context key = some (.str text) := by
  have hne : key ≠ "phone" ∧ key ≠ "phone_href" := by
    constructor <;> (rintro rfl; exact absurd h.1 (by decide))
  rw [pageContext, if_neg hne.1, if_neg hne.2, mergedContext, h.2, Option.none_or,
    lookup_withSecrets h.1, Option.some_or]

theorem widens_pageContext (site : SiteManifest) (context : Dict Value) :
    Widens context (pageContext (withSecrets site "") context)
      (pageContext (withSecrets site "x") context) := by
  refine fun key => ⟨fun hkey => ?_, fun hkey => ⟨pageContext_exposed hkey,
    pageContext_exposed hkey⟩⟩
  rw [pageContext_congr (sameButSecrets_withSecrets site "x") hkey,
    pageContext_congr (sameButSecrets_withSecrets site "") hkey]

theorem blockContext_exposed {value : Value} (h : Exposed context key)
    (hvalue : ctx key = some value) : blockContext page ctx block key = some value := by
  have hne : key ≠ "unique_core" := by
    rintro rfl
    exact absurd h.1 (by decide)
  rw [blockContext, slotValues, hvalue, if_neg (by simp), if_neg hne, Option.none_or]

theorem widens_blockContext (h : Widens context ctx ctx') (page : PageManifest) (block : BlockDef) :
    Widens context (blockContext page ctx block) (blockContext page ctx' block) := by
  refine fun key => ⟨fun hkey => blockContext_congr page block ((h key).1 hkey), fun hkey => ?_⟩
  exact ⟨blockContext_exposed hkey ((h key).2 hkey).1, blockContext_exposed hkey ((h key).2 hkey).2⟩

/-! ## Lengths

The texts are counted after each character has been written as `write` says: as it is, or
escaped. -/

def size (write : Char → List Char) (ctx : Context) (template : String) : Nat :=
  ((tokens template).flatMap (fun token => (fillToken ctx token).flatMap write)).length

theorem length_fillSlots (template : String) (ctx : Context) :
    (fillSlots template ctx).length = size (fun c => [c]) ctx template := by
  simp [fillSlots, size]

theorem length_escape_fillSlots (template : String) (ctx : Context) :
    (escape (fillSlots template ctx)).length = size escapeChar ctx template := by
  rw [escape, fillSlots, String.length_ofList, String.toList_ofList, List.flatMap_assoc, size]

theorem tokenSize_le (h : Widens context ctx ctx') (write : Char → List Char) (token : Token) :
    ((fillToken ctx token).flatMap write).length ≤ ((fillToken ctx' token).flatMap write).length := by
  cases token with
  | char c => exact Nat.le_refl _
  | slot key =>
    by_cases hkey : Exposed context key
    · rw [fillToken, ((h key).2 hkey).1]
      exact Nat.zero_le _
    · rw [fillToken, fillToken, (h key).1 hkey]

theorem size_le (h : Widens context ctx ctx') (write : Char → List Char) (template : String) :
    size write ctx template ≤ size write ctx' template := by
  rw [size, size, List.length_flatMap, List.length_flatMap]
  exact List.sum_le_sum (fun token _ => tokenSize_le h write token)

/-- A template that reads a protected field grows with it. -/
theorem size_lt (h : Widens context ctx ctx') {write : Char → List Char} (hx : write 'x' ≠ [])
    (hreads : ReadsSecret context template) :
    size write ctx template < size write ctx' template := by
  obtain ⟨key, hkey, hexposed⟩ := hreads
  rw [size, size, List.length_flatMap, List.length_flatMap]
  refine List.sum_lt_sum _ _ (fun token _ => tokenSize_le h write token)
    ⟨.slot key, mem_slots.mp hkey, ?_⟩
  rw [fillToken, fillToken, ((h key).2 hexposed).1, ((h key).2 hexposed).2]
  show 0 < (write 'x' ++ []).length
  rw [List.append_nil]
  exact List.length_pos_iff.mpr hx

/-- `"\n".join` adds one character between two parts. -/
theorem length_joinLines (parts : List String) :
    (joinLines parts).length = (parts.map (fun part => part.length + 1)).sum - 1 := by
  induction parts with
  | nil => rfl
  | cons part parts ih =>
    cases parts with
    | nil => simp [joinLines]
    | cons next parts =>
      have hnewline : "\n".length = 1 := rfl
      rw [joinLines, String.length_append, String.length_append, ih, hnewline]
      simp only [List.map_cons, List.sum_cons]
      omega

/-! ## A sanitizer that keeps the length

It turns every character into an `a`: no heading is ever found, so the page shows its `h1`. -/

def blank (html : String) : String := String.ofList (List.replicate html.length 'a')

theorem length_blank (html : String) : (blank html).length = html.length := by
  rw [blank, String.length_ofList, List.length_replicate]

theorem containsH1_blank (html : String) : containsH1 (blank html) = false := by
  rw [containsH1, searches, List.any_eq_false, blank, String.toList_ofList]
  intro tail htail
  rw [List.mem_tails] at htail
  cases tail with
  | nil => decide
  | cons c cs =>
    have hc : c = 'a' := List.eq_of_mem_replicate (htail.subset (List.mem_cons_self ..))
    rw [hc]
    exact Bool.false_ne_true

/-- The length of what the blocks and the gallery add to the body, each part with one more. -/
def bodySize (page : PageManifest) (mediaUrls : Dict String) (ctx : Context) : Nat :=
  ((sortedBlocks page).map (fun block =>
    ((blockParts page mediaUrls block (blockHtml blank page ctx block)).map
      (fun part => part.length + 1)).sum)).sum

theorem bodySize_block (page : PageManifest) (mediaUrls : Dict String) (block : BlockDef) :
    ∃ rest, ∀ ctx : Context,
      ((blockParts page mediaUrls block (blockHtml blank page ctx block)).map
        (fun part => part.length + 1)).sum
        = rest + size (fun c => [c]) (blockContext page ctx block) block.html + 1 := by
  refine ⟨("<section class=\"" ++ escape block.hashClass ++ "\" data-block=\"" ++
    escape block.type ++ "\">").length + "</section>".length +
    ((blockMediaHtml page mediaUrls block).toList.map (fun part => part.length + 1)).sum,
    fun ctx => ?_⟩
  rw [blockParts, List.map_cons, List.sum_cons, String.length_append, String.length_append,
    blockHtml, length_blank, length_fillSlots]
  omega

theorem bodySize_le (h : Widens context ctx ctx') (page : PageManifest) (mediaUrls : Dict String) :
    bodySize page mediaUrls ctx ≤ bodySize page mediaUrls ctx' := by
  refine List.sum_le_sum (fun block _ => ?_)
  obtain ⟨rest, hrest⟩ := bodySize_block page mediaUrls block
  have hle := size_le (widens_blockContext h page block) (fun c => [c]) block.html
  rw [hrest, hrest]
  omega

theorem bodySize_lt (h : Widens context ctx ctx') (mediaUrls : Dict String)
    (hblock : block ∈ page.blocks) (hreads : ReadsSecret context block.html) :
    0 < bodySize page mediaUrls ctx ∧
      bodySize page mediaUrls ctx < bodySize page mediaUrls ctx' := by
  have hmem := mem_sortedBlocks.mpr hblock
  have hlt : ∀ block ∈ page.blocks, ReadsSecret context block.html → ∀ c : Char → List Char,
      c 'x' ≠ [] → size c (blockContext page ctx block) block.html
        < size c (blockContext page ctx' block) block.html := fun block _ hreads c hc =>
    size_lt (widens_blockContext h page block) hc hreads
  constructor
  · obtain ⟨rest, hrest⟩ := bodySize_block page mediaUrls block
    have hpart := List.single_le_sum (l := (sortedBlocks page).map (fun block =>
      ((blockParts page mediaUrls block (blockHtml blank page ctx block)).map
        (fun part => part.length + 1)).sum)) (fun _ _ => Nat.zero_le _) _
      (List.mem_map.mpr ⟨block, hmem, rfl⟩)
    rw [hrest] at hpart
    exact Nat.lt_of_lt_of_le (Nat.succ_pos _) hpart
  · refine List.sum_lt_sum _ _ (fun block _ => ?_) ⟨block, hmem, ?_⟩
    · obtain ⟨rest, hrest⟩ := bodySize_block page mediaUrls block
      have hle := size_le (widens_blockContext h page block) (fun c => [c]) block.html
      rw [hrest, hrest]
      omega
    · obtain ⟨rest, hrest⟩ := bodySize_block page mediaUrls block
      have hsize := hlt block hblock hreads (fun c => [c]) (List.cons_ne_nil _ _)
      rw [hrest, hrest]
      omega

/-! ## Where the texts stand -/

theorem toList_between {d e : String} {cd ce : Char} {ds es : List Char}
    (hd : d.toList = cd :: ds) (he : e.toList = ce :: es) (a₁ a₂ a₃ a₄ b₁ b₂ b₃ b₄ b₅ b₆ t m : String) :
    (a₁ ++ a₂ ++ a₃ ++ a₄ ++ t ++ d ++ m ++ e ++ b₁ ++ b₂ ++ b₃ ++ b₄ ++ b₅ ++ b₆).toList
      = (a₁ ++ a₂ ++ a₃ ++ a₄).toList ++ (t.toList ++ cd :: (ds ++ (m.toList ++
        ce :: (es ++ (b₁ ++ b₂ ++ b₃ ++ b₄ ++ b₅ ++ b₆).toList)))) := by
  simp only [String.toList_append, List.append_assoc, hd, he, List.cons_append]

/-- The title ends at the next `<`, and the description at the next quote. -/
theorem headHtml_toList (site : SiteManifest) (page : PageManifest) (mediaUrls : Dict String)
    (css : String) : ∃ before between after : List Char, ∀ title metaText,
      (headHtml site page mediaUrls title metaText css).toList
        = before ++ (title.toList ++ '<' :: (between ++ (metaText.toList ++ '"' :: after))) := by
  have htitle : "</title>\n  <meta name=\"description\" content=\"".toList
      = '<' :: "/title>\n  <meta name=\"description\" content=\"".toList := by decide
  have hmeta : "\">\n  <link rel=\"canonical\" href=\"".toList
      = '"' :: ">\n  <link rel=\"canonical\" href=\"".toList := by decide
  exact ⟨_, _, _, toList_between htitle hmeta _ _ _ _ _ _ _ _ _ _⟩

theorem length_between (a₁ a₂ a₃ c d b₁ b₂ b₃ e₁ e₂ e₃ t u : String) :
    (a₁ ++ a₂ ++ a₃ ++ (c ++ t ++ d) ++ b₁ ++ b₂ ++ b₃ ++ u ++ e₁ ++ e₂ ++ e₃).length
      = (a₁ ++ a₂ ++ a₃ ++ c ++ d ++ b₁ ++ b₂ ++ b₃ ++ e₁ ++ e₂ ++ e₃).length
        + t.length + u.length := by
  simp only [String.length_append]
  omega

theorem length_bodyHtml (site : SiteManifest) (mediaUrls : Dict String) (unique author : String) :
    ∃ rest, ∀ h1 body,
      (bodyHtml site mediaUrls ("<h1>" ++ h1 ++ "</h1>") unique body author).length
        = rest + h1.length + body.length :=
  ⟨_, length_between _ _ _ _ _ _ _ _ _ _ _⟩

/-- The lines of the body: what the blocks add, and the gallery when there is one. -/
theorem length_bodyLines (page : PageManifest) (mediaUrls : Dict String) :
    ∃ gallery, ∀ ctx, (joinLines (if mediaHtml page mediaUrls = "" then
        (sortedBlocks page).flatMap (fun block =>
          blockParts page mediaUrls block (blockHtml blank page ctx block))
      else (sortedBlocks page).flatMap (fun block =>
          blockParts page mediaUrls block (blockHtml blank page ctx block)) ++
          [mediaHtml page mediaUrls])).length = bodySize page mediaUrls ctx + gallery - 1 := by
  have hparts : ∀ ctx, (((sortedBlocks page).flatMap (fun block =>
      blockParts page mediaUrls block (blockHtml blank page ctx block))).map
        (fun part => part.length + 1)).sum = bodySize page mediaUrls ctx := by
    intro ctx
    rw [List.map_flatMap, List.flatMap, List.sum_flatten, List.map_map]
    rfl
  by_cases hmedia : mediaHtml page mediaUrls = ""
  · refine ⟨0, fun ctx => ?_⟩
    rw [if_pos hmedia, length_joinLines, hparts, Nat.add_zero]
  · refine ⟨(mediaHtml page mediaUrls).length + 1, fun ctx => ?_⟩
    rw [if_neg hmedia, length_joinLines, List.map_append, List.sum_append, hparts]
    rfl

/-- The length of a page in its parts; `rest` does not depend on the protected contacts. -/
theorem length_renderPage (site : SiteManifest) (page : PageManifest) (context : Dict Value)
    (mediaUrls : Dict String) : ∃ rest gallery, ∀ text ctx,
      pageContext (withSecrets site text) context = ctx →
      (renderPage blank (withSecrets site text) page context mediaUrls).length
        = rest + size escapeChar ctx page.titleTemplate + size escapeChar ctx page.h1Template
          + size escapeChar ctx page.metaDescriptionTemplate
          + (bodySize page mediaUrls ctx + gallery - 1) := by
  obtain ⟨before, between, after, hhead⟩ :=
    headHtml_toList site page mediaUrls (cssText site (sortedBlocks page))
  obtain ⟨rest, hbody⟩ := length_bodyHtml site mediaUrls
    (if (sortedBlocks page).any (fun block => block.type == "hero")
        ∨ escape (page.uniqueCore.getD "") = "" then ""
      else "<p class=\"unique-core\">" ++ escape (page.uniqueCore.getD "") ++ "</p>")
    ((page.author.map (authorHtml mediaUrls)).getD "")
  obtain ⟨gallery, hlines⟩ := length_bodyLines page mediaUrls
  refine ⟨before.length + between.length + after.length + 2 + rest, gallery,
    fun text ctx hctx => ?_⟩
  have hH1 : (sortedBlocks page).any (fun block => containsH1 (blockHtml blank page ctx block))
      = false := by
    rw [List.any_eq_false]
    intro block _
    rw [blockHtml, containsH1_blank]
    exact Bool.false_ne_true
  have htitle : ∀ title metaText, (headHtml site page mediaUrls title metaText
      (cssText site (sortedBlocks page))).length
        = before.length + between.length + after.length + 2 + title.length + metaText.length := by
    intro title metaText
    rw [← String.length_toList, hhead]
    simp only [List.length_append, List.length_cons, String.length_toList]
    omega
  have hpage : renderPage blank (withSecrets site text) page context mediaUrls
      = headHtml site page mediaUrls (escape (fillSlots page.titleTemplate ctx))
          (escape (fillSlots page.metaDescriptionTemplate ctx)) (cssText site (sortedBlocks page)) ++
        bodyHtml site mediaUrls ("<h1>" ++ escape (fillSlots page.h1Template ctx) ++ "</h1>")
          (if (sortedBlocks page).any (fun block => block.type == "hero")
            ∨ escape (page.uniqueCore.getD "") = "" then ""
            else "<p class=\"unique-core\">" ++ escape (page.uniqueCore.getD "") ++ "</p>")
          (joinLines (if mediaHtml page mediaUrls = "" then
              (sortedBlocks page).flatMap (fun block =>
                blockParts page mediaUrls block (blockHtml blank page ctx block))
            else (sortedBlocks page).flatMap (fun block =>
                blockParts page mediaUrls block (blockHtml blank page ctx block)) ++
                [mediaHtml page mediaUrls]))
          ((page.author.map (authorHtml mediaUrls)).getD "") := by
    simp only [renderPage, hctx, hH1]
    rfl
  rw [hpage, String.length_append, htitle, hbody, hlines, length_escape_fillSlots,
    length_escape_fillSlots, length_escape_fillSlots]
  omega

/-! ## The page and its templates -/

variable {c : Char}

/-- Every part grows with the protected contacts, and a template that reads one grows strictly. -/
theorem length_renderPage_lt (site : SiteManifest) (mediaUrls : Dict String)
    (htemplate : template ∈ templates page) (hreads : ReadsSecret context template) :
    (renderPage blank (withSecrets site "") page context mediaUrls).length
      < (renderPage blank (withSecrets site "x") page context mediaUrls).length := by
  obtain ⟨rest, gallery, hlength⟩ := length_renderPage site page context mediaUrls
  have hwidens := widens_pageContext site context
  have hx : escapeChar 'x' ≠ [] := by decide
  have htitle := size_le hwidens escapeChar page.titleTemplate
  have hh1 := size_le hwidens escapeChar page.h1Template
  have hmeta := size_le hwidens escapeChar page.metaDescriptionTemplate
  have hbody := bodySize_le hwidens page mediaUrls
  rw [hlength "" _ rfl, hlength "x" _ rfl]
  simp only [templates, List.mem_cons, List.mem_map] at htemplate
  rcases htemplate with rfl | rfl | rfl | ⟨block, hblock, rfl⟩
  · have hlt := size_lt hwidens hx hreads
    omega
  · have hlt := size_lt hwidens hx hreads
    omega
  · have hlt := size_lt hwidens hx hreads
    omega
  · have hlt := bodySize_lt hwidens mediaUrls hblock hreads
    omega

theorem escape_notMem (hc : c = '<' ∨ c = '"') (text : String) : c ∉ (escape text).toList := by
  rw [escape, String.toList_ofList, List.mem_flatMap]
  rintro ⟨d, _, hmem⟩
  have hno : ∀ entity : String, c ∈ entity.toList →
      '<' ∉ entity.toList → '"' ∉ entity.toList → False := by
    intro entity hentity hlt hquote
    rcases hc with rfl | rfl
    · exact hlt hentity
    · exact hquote hentity
  rw [escapeChar] at hmem
  split_ifs at hmem with hamp hlt hgt hquote hapostrophe
  · exact hno _ hmem (by decide) (by decide)
  · exact hno _ hmem (by decide) (by decide)
  · exact hno _ hmem (by decide) (by decide)
  · exact hno _ hmem (by decide) (by decide)
  · exact hno _ hmem (by decide) (by decide)
  · rw [List.mem_singleton] at hmem
    rcases hc with rfl | rfl
    · exact hlt hmem.symm
    · exact hquote hmem.symm

theorem append_cons_inj {xs ys r r' : List Char} (hx : c ∉ xs) (hy : c ∉ ys)
    (h : xs ++ c :: r = ys ++ c :: r') : xs = ys ∧ r = r' := by
  induction xs generalizing ys with
  | nil =>
    cases ys with
    | nil => exact ⟨rfl, (List.cons.inj h).2⟩
    | cons y ys =>
      rw [(List.cons.inj h).1] at hy
      exact absurd (List.mem_cons_self ..) hy
  | cons x xs ih =>
    cases ys with
    | nil =>
      rw [← (List.cons.inj h).1] at hx
      exact absurd (List.mem_cons_self ..) hx
    | cons y ys =>
      obtain ⟨rfl, hrest⟩ := List.cons.inj h
      obtain ⟨rfl, hr⟩ := ih (List.not_mem_of_not_mem_cons hx)
        (List.not_mem_of_not_mem_cons hy) hrest
      exact ⟨rfl, hr⟩

/-- Equal pages of two sites that differ in their contacts have equal titles and descriptions: the
title ends at the first `<` after its place, the description at the first quote. -/
theorem renderPage_texts {sanitize : String → String} {site : SiteManifest} {page : PageManifest}
    {context : Dict Value} {mediaUrls : Dict String} {contacts contacts' : Dict Value}
    (h : renderPage sanitize { site with contacts := contacts } page context mediaUrls
      = renderPage sanitize { site with contacts := contacts' } page context mediaUrls) :
    escape (fillSlots page.titleTemplate (pageContext { site with contacts := contacts } context))
        = escape (fillSlots page.titleTemplate
            (pageContext { site with contacts := contacts' } context)) ∧
      escape (fillSlots page.metaDescriptionTemplate
          (pageContext { site with contacts := contacts } context))
        = escape (fillSlots page.metaDescriptionTemplate
            (pageContext { site with contacts := contacts' } context)) := by
  obtain ⟨before, between, after, hhead⟩ :=
    headHtml_toList site page mediaUrls (cssText site (sortedBlocks page))
  have hshape : ∀ contacts, ∃ rest : String,
      renderPage sanitize { site with contacts := contacts } page context mediaUrls
        = headHtml site page mediaUrls
            (escape (fillSlots page.titleTemplate
              (pageContext { site with contacts := contacts } context)))
            (escape (fillSlots page.metaDescriptionTemplate
              (pageContext { site with contacts := contacts } context)))
            (cssText site (sortedBlocks page)) ++ rest := fun contacts => ⟨_, rfl⟩
  obtain ⟨rest, hpage⟩ := hshape contacts
  obtain ⟨rest', hpage'⟩ := hshape contacts'
  have hlist := congrArg String.toList (hpage.symm.trans (h.trans hpage'))
  rw [String.toList_append, String.toList_append, hhead, hhead] at hlist
  simp only [List.append_assoc, List.cons_append, List.append_cancel_left_eq] at hlist
  obtain ⟨htitle, htail⟩ := append_cons_inj (escape_notMem (Or.inl rfl) _)
    (escape_notMem (Or.inl rfl) _) hlist
  rw [List.append_cancel_left_eq] at htail
  obtain ⟨hmeta, _⟩ := append_cons_inj (escape_notMem (Or.inr rfl) _)
    (escape_notMem (Or.inr rfl) _) htail
  exact ⟨String.toList_inj.mp htitle, String.toList_inj.mp hmeta⟩

/-- **Which pages hide the protected contacts.** Whatever the sanitizer does with the blocks, a page
is the same for all values of the protected contacts exactly when no template of it reads
one that the build context does not define. Where the title or the description reads one,
no sanitizer helps. -/
theorem render_page_secrets (site : SiteManifest) (page : PageManifest) (context : Dict Value)
    (mediaUrls : Dict String) :
    ((∀ sanitize, HidesSecrets sanitize site page context mediaUrls) ↔
      ∀ template ∈ templates page, ¬ ReadsSecret context template) ∧
    ∀ sanitize, HidesSecrets sanitize site page context mediaUrls →
      ¬ ReadsSecret context page.titleTemplate ∧
      ¬ ReadsSecret context page.metaDescriptionTemplate := by
  have hwidens := widens_pageContext site context
  have hx : escapeChar 'x' ≠ [] := by decide
  have hsame : ∀ sanitize, HidesSecrets sanitize site page context mediaUrls →
      renderPage sanitize (withSecrets site "") page context mediaUrls
        = renderPage sanitize (withSecrets site "x") page context mediaUrls := fun sanitize h =>
    (h _ (sameButSecrets_withSecrets site "")).trans
      (h _ (sameButSecrets_withSecrets site "x")).symm
  refine ⟨⟨fun h template htemplate hreads => ?_, fun h sanitize =>
    hidesSecrets_of_not_reads sanitize site mediaUrls h⟩, fun sanitize h => ⟨?_, ?_⟩⟩
  · have hlt := length_renderPage_lt site mediaUrls htemplate hreads
    rw [hsame blank (h blank)] at hlt
    exact Nat.lt_irrefl _ hlt
  · intro hreads
    have hlength := congrArg String.length (renderPage_texts (hsame sanitize h)).1
    rw [length_escape_fillSlots, length_escape_fillSlots] at hlength
    exact absurd hlength (Nat.ne_of_lt (size_lt hwidens hx hreads))
  · intro hreads
    have hlength := congrArg String.length (renderPage_texts (hsame sanitize h)).2
    rw [length_escape_fillSlots, length_escape_fillSlots] at hlength
    exact absurd hlength (Nat.ne_of_lt (size_lt hwidens hx hreads))

/-! A page whose title names the secret, on a site with a webhook. -/

def titlePage : PageManifest where
  slug := "/"
  titleTemplate := "Repair {webhook_secret}"
  h1Template := "Repair"
  metaDescriptionTemplate := ""
  blocks := []
  uniqueCore := none
  blockSlotValues := []
  media := []
  blockMedia := []
  author := none
  seed := 0

def hookedSite (secret : String) : SiteManifest where
  domain := "example.test"
  locale := "ru"
  cssVars := []
  branding := none
  contacts := [("webhook_url", .str "https://hooks.test/"), ("webhook_secret", .str secret)]

/-- The title of the page is `Repair first` for one secret and `Repair second` for the other. -/
theorem render_page_secrets_title :
    SameButSecrets (hookedSite "first") (hookedSite "second") ∧
    ∀ sanitize, renderPage sanitize (hookedSite "second") titlePage [] []
      ≠ renderPage sanitize (hookedSite "first") titlePage [] [] := by
  refine ⟨⟨rfl, fun key hkey => ?_⟩, fun sanitize h => ?_⟩
  · simp only [protectedContactFields, List.mem_cons, List.not_mem_nil, or_false, not_or] at hkey
    simp [hookedSite, List.lookup_cons, beq_eq_false_iff_ne.mpr hkey.1,
      beq_eq_false_iff_ne.mpr hkey.2.1]
  · have htitle := (@renderPage_texts sanitize (hookedSite "first") titlePage [] []
      (hookedSite "second").contacts (hookedSite "first").contacts h).1
    exact absurd htitle (by decide +kernel)

end MegaPanel.Rendering

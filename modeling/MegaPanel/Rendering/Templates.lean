import MegaPanel.Lib.Text
import MegaPanel.Lib.Uuid
import Mathlib.Data.Int.Bitwise
import Mathlib.Data.List.Sort

set_option autoImplicit false

/-! # Pages of a site

`render_page` (`packages/ssg/.../templates.py`) turns a site and one of its pages into HTML. The
texts of the page are templates: `fill_slots` replaces `{key}` by what the context
holds for the key. The context is merged from the site's domain and locale, its contacts, and the
context of the build, in that order.

* `sanitize` is `sanitize_html`, a call of the library `nh3`.
* The value of a contact or of the build context is `None`, a string, or any other value, of which
  only its truth and its `str` matter.
-/

namespace MegaPanel.Rendering

open MegaPanel.Lib MegaPanel.Lib.Text

/-! ## Manifests -/

inductive Value
  | none
  | str (text : String)
  | other (truthy : Bool) (text : String)

/-- A dictionary; its keys differ. -/
abbrev Dict (ν : Type) := List (String × ν)

structure BlockDef where
  type : String
  hashClass : String
  html : String
  css : String
  order : Int

/-- `PageMedia` and `BrandLogo` -/
structure PageMedia where
  assetId : Uuid
  alt : String

structure Author where
  slug : String
  name : String
  role : String
  biography : String
  expertise : List String
  evidence : List String
  portrait : PageMedia

structure SiteBranding where
  logo : Option PageMedia
  favicon : Option Uuid

structure PageManifest where
  slug : String
  titleTemplate : String
  h1Template : String
  metaDescriptionTemplate : String
  blocks : List BlockDef
  uniqueCore : Option String
  blockSlotValues : Dict (Dict (Option String))
  media : List PageMedia
  blockMedia : Dict PageMedia
  author : Option Author
  seed : Int

structure SiteManifest where
  domain : String
  locale : String
  cssVars : Dict String
  branding : Option SiteBranding
  contacts : Dict Value

/-! ## Patterns of `re` -/

/-- A character matches a lower-case letter or a sign of a pattern with `re.IGNORECASE`. -/
def matchesLetter (letter c : Char) : Bool :=
  c.toLower == letter || (letter == 'i' && (c == '\u0130' || c == '\u0131'))
    || (letter == 's' && c == '\u017f') || (letter == 'k' && c == '\u212a')

inductive Item
  | letter (c : Char)
  /-- `\s*` -/
  | spaces
  /-- `(?:\s|>)` -/
  | spaceOrClose

def matchHere : List Item → List Char → Bool
  | [], _ => true
  | .letter c :: items, d :: ds => matchesLetter c d && matchHere items ds
  | .spaces :: items, ds => matchHere items (ds.dropWhile isSpace)
  | .spaceOrClose :: items, d :: ds => (isSpace d || d == '>') && matchHere items ds
  | _ :: _, [] => false

/-- `re.search` -/
def searches (items : List Item) (text : List Char) : Bool := text.tails.any (matchHere items)

def letters (word : String) : List Item := word.toList.map .letter

/-! ## Phones

`site_panel_shared/phone.py` -/

/-- The zeros of the decimal digits of Unicode, each the first of ten. -/
def decimalZeros : List Nat :=
  [0x30, 0x660, 0x6f0, 0x7c0, 0x966, 0x9e6, 0xa66, 0xae6, 0xb66, 0xbe6, 0xc66, 0xce6, 0xd66, 0xde6,
   0xe50, 0xed0, 0xf20, 0x1040, 0x1090, 0x17e0, 0x1810, 0x1946, 0x19d0, 0x1a80, 0x1a90, 0x1b50,
   0x1bb0, 0x1c40, 0x1c50, 0xa620, 0xa8d0, 0xa900, 0xa9d0, 0xa9f0, 0xaa50, 0xabf0, 0xff10, 0x104a0,
   0x10d30, 0x11066, 0x110f0, 0x11136, 0x111d0, 0x112f0, 0x11450, 0x114d0, 0x11650, 0x116c0,
   0x11730, 0x118e0, 0x11950, 0x11c50, 0x11d50, 0x11da0, 0x11f50, 0x16a60, 0x16ac0, 0x16b50,
   0x1d7ce, 0x1d7d8, 0x1d7e2, 0x1d7ec, 0x1d7f6, 0x1e140, 0x1e2f0, 0x1e4f0, 0x1e950, 0x1fbf0]

/-- `\d` -/
def isDecimal (c : Char) : Bool := decimalZeros.any (fun z => z ≤ c.toNat && c.toNat < z + 10)

def normalizePhoneE164 (value : String) : Option String :=
  let digits := value.toList.filter isDecimal
  let digits :=
    if digits.length = 10 then '7' :: digits
    else if digits.length = 11 ∧ digits.head? = some '8' then '7' :: digits.tail
    else digits
  if digits.length = 11 ∧ digits.head? = some '7' then some (String.ofList ('+' :: digits))
  else none

def formatPhoneDisplay (value : String) : String :=
  match normalizePhoneE164 value with
  | none => strip value
  | some normalized =>
    let national := normalized.toList.drop 2
    String.ofList ('8' :: '(' :: national.take 3 ++ ')' :: (national.drop 3).take 3 ++
      '-' :: (national.drop 6).take 2 ++ '-' :: national.drop 8)

/-! ## Slots -/

/-- What the template is filled from: the value of each key it defines. -/
abbrev Context := String → Option Value

/-- `[a-z0-9_]` with `re.IGNORECASE` -/
def isSlotChar (c : Char) : Bool :=
  c.isAlphanum || c == '_' || c == '\u0130' || c == '\u0131' || c == '\u017f' || c == '\u212a'

inductive Token
  | char (c : Char)
  | slot (key : String)

/-- The scan for `\{([a-z0-9_]+)\}`; the first argument is what was read of a slot so far. -/
def tokensFrom : Option (List Char) → List Char → List Token
  | none, [] => []
  | some name, [] => ('{' :: name).map .char
  | none, c :: cs => if c = '{' then tokensFrom (some []) cs else .char c :: tokensFrom none cs
  | some name, c :: cs =>
    if isSlotChar c then tokensFrom (some (name ++ [c])) cs
    else if c = '}' ∧ name ≠ [] then .slot (String.ofList name) :: tokensFrom none cs
    else ('{' :: name).map .char ++
      (if c = '{' then tokensFrom (some []) cs else .char c :: tokensFrom none cs)

def tokens (template : String) : List Token := tokensFrom none template.toList

/-- `"" if value is None else str(value)` -/
def slotText : Option Value → String
  | some (.str text) => text
  | some (.other _ text) => text
  | _ => ""

/-- `str(value or "")` -/
def textOrEmpty : Option Value → String
  | some (.str text) => text
  | some (.other true text) => text
  | _ => ""

def fillToken (ctx : Context) : Token → List Char
  | .char c => [c]
  | .slot key => (slotText (ctx key)).toList

def fillSlots (template : String) (ctx : Context) : String :=
  String.ofList ((tokens template).flatMap (fillToken ctx))

/-! ## Parts of a page -/

def escapeChar (c : Char) : List Char :=
  if c = '&' then "&amp;".toList
  else if c = '<' then "&lt;".toList
  else if c = '>' then "&gt;".toList
  else if c = '"' then "&quot;".toList
  else if c = '\'' then "&#x27;".toList
  else [c]

/-- `html.escape(text)`, which escapes the quotes by default. -/
def escape (text : String) : String := String.ofList (text.toList.flatMap escapeChar)

/-- `"\n".join(parts)` -/
def joinLines : List String → String
  | [] => ""
  | [part] => part
  | part :: next :: parts => part ++ "\n" ++ joinLines (next :: parts)

def pageUrl (domain slug : String) : String :=
  let host := stripSlashes (strip domain)
  let path := stripSlashes slug
  if path = "" then "https://" ++ host ++ "/" else "https://" ++ host ++ "/" ++ path ++ "/"

/-- `_FORBIDDEN_CSS` -/
def forbiddenCss : List (List Item) :=
  [letters "@import", letters "expression" ++ [.spaces, .letter '('],
   letters "url" ++ [.spaces, .letter '('], letters "-moz-binding",
   letters "behavior" ++ [.spaces, .letter ':'], letters "</style"]

/-- `_safe_css` -/
def safeCss (value : String) : String :=
  if forbiddenCss.any (fun items => searches items value.toList) then "" else value

/-- The style rules of every page. -/
def baseCss : String :=
  "body\x7bmargin:0;background:var(--sp-bg,var(--bg,#fff));" ++
  "color:var(--sp-text,var(--text,#111));" ++
  "font-family:var(--sp-font,system-ui,sans-serif);\x7d" ++
  " main\x7bmax-width:960px;margin:0 auto;padding:1rem;\x7d" ++
  " .sp-block-media\x7bmargin:1rem 0\x7d" ++
  " .sp-block-media img\x7bdisplay:block;max-width:100%;height:auto\x7d" ++
  " .sp-author\x7bdisplay:grid;grid-template-columns:minmax(0,1fr);gap:1rem;" ++
  "margin:2rem 0;padding:1rem;border:1px solid #d7dbe2;border-radius:.75rem;\x7d" ++
  " .sp-author__portrait\x7bwidth:112px;height:112px;object-fit:cover;border-radius:50%;\x7d" ++
  " .sp-author__meta\x7bmargin:0;color:#444\x7d" ++
  " .sp-brand\x7bmax-width:960px;margin:0 auto;padding:1rem 1rem 0;\x7d" ++
  " .sp-brand__link\x7bdisplay:inline-flex;align-items:center;\x7d" ++
  " .sp-brand__logo\x7bdisplay:block;max-width:min(240px,100%);max-height:72px;" ++
  "width:auto;height:auto;\x7d"

def cssText (site : SiteManifest) (blocks : List BlockDef) : String :=
  let vars := site.cssVars.filterMap (fun e =>
    if safeCss e.2 = "" then none else some ("  --" ++ e.1 ++ ": " ++ safeCss e.2 ++ ";"))
  let rules := blocks.filterMap (fun block =>
    if safeCss block.css = "" then none else some (safeCss block.css))
  joinLines (":root \x7b" :: vars ++ "\x7d" :: baseCss :: rules)

/-- `(media_urls or {}).get(str(asset_id))`, when it is not empty. -/
def mediaUrl (mediaUrls : Dict String) (assetId : Uuid) : Option String :=
  (mediaUrls.lookup assetId.str).filter (· ≠ "")

def blockMediaHtml (page : PageManifest) (mediaUrls : Dict String) (block : BlockDef) :
    Option String :=
  (page.blockMedia.lookup block.type).bind (fun attachment =>
    (mediaUrl mediaUrls attachment.assetId).map (fun url =>
      "<figure class=\"sp-block-media\" data-media-for=\"" ++ escape block.type ++ "\">" ++
        "<img src=\"" ++ escape url ++ "\" alt=\"" ++ escape attachment.alt ++ "\" " ++
        "loading=\"lazy\" decoding=\"async\"></figure>"))

def mediaHtml (page : PageManifest) (mediaUrls : Dict String) : String :=
  joinLines (page.media.filterMap (fun item =>
    (mediaUrl mediaUrls item.assetId).map (fun url =>
      "<section class=\"sp-media-gallery\"><figure><img src=\"" ++ escape url ++ "\" alt=\"" ++
        escape item.alt ++ "\" loading=\"lazy\" decoding=\"async\"></figure></section>")))

def authorHtml (mediaUrls : Dict String) (author : Author) : String :=
  let portrait :=
    match mediaUrl mediaUrls author.portrait.assetId with
    | some url => "<img class=\"sp-author__portrait\" src=\"" ++ escape url ++ "\" alt=\"" ++
        escape author.portrait.alt ++ "\" loading=\"lazy\" decoding=\"async\">"
    | none => ""
  let items (texts : List String) : String :=
    String.join (texts.map (fun text => "<li>" ++ escape text ++ "</li>"))
  "<section class=\"sp-author\" id=\"author-" ++ escape author.slug ++ "\">\n      " ++ portrait ++
    "\n      <div>\n        <h2>Автор материала: " ++ escape author.name ++
    "</h2>\n        <p class=\"sp-author__meta\">" ++ escape author.role ++
    "</p>\n        <p>" ++ escape author.biography ++
    "</p>\n        <h3>Экспертиза</h3><ul>" ++ items author.expertise ++
    "</ul>\n        <h3>Основания для публикации</h3><ul>" ++ items author.evidence ++
    "</ul>\n      </div>\n    </section>"

def logoHtml (site : SiteManifest) (mediaUrls : Dict String) : String :=
  match site.branding.bind (·.logo) with
  | none => ""
  | some logo =>
    match mediaUrl mediaUrls logo.assetId with
    | none => ""
    | some url =>
      "<header class=\"sp-brand\"><a class=\"sp-brand__link\" href=\"/\">" ++
        "<img class=\"sp-brand__logo\" src=\"" ++ escape url ++ "\" alt=\"" ++
        escape logo.alt ++ "\" decoding=\"async\"></a></header>"

def faviconHtml (site : SiteManifest) (mediaUrls : Dict String) : String :=
  match (site.branding.bind (·.favicon)).bind (mediaUrl mediaUrls) with
  | none => ""
  | some url =>
    "  <link rel=\"icon\" type=\"image/webp\" href=\"" ++ escape url ++ "\">\n"

/-! ## The context of a page -/

/-- `{"domain": ..., "locale": ..., **(site.contacts or {}), **(context or {})}` -/
def mergedContext (site : SiteManifest) (context : Dict Value) : Context := fun key =>
  (context.lookup key).or ((site.contacts.lookup key).or
    (([("domain", .str site.domain), ("locale", .str site.locale)] : Dict Value).lookup key))

/-- The context, with the phone in its two forms. -/
def pageContext (site : SiteManifest) (context : Dict Value) : Context := fun key =>
  let rawPhone := textOrEmpty (mergedContext site context "phone")
  if key = "phone" then some (.str (formatPhoneDisplay rawPhone))
  else if key = "phone_href" then
    some (.str ((normalizePhoneE164 rawPhone).getD (strip rawPhone)))
  else mergedContext site context key

/-- `slot_values` of a block: keys that the context does not define. -/
def slotValues (page : PageManifest) (ctx : Context) (block : BlockDef) : Context := fun key =>
  if (ctx key).isNone ∧ key ≠ "unique_core" then
    (((page.blockSlotValues.lookup block.type).getD []).lookup key).map
      (fun value => .str (escape (value.getD "")))
  else none

/-- `{**ctx, "unique_core": ..., **slot_values}` -/
def blockContext (page : PageManifest) (ctx : Context) (block : BlockDef) : Context := fun key =>
  (slotValues page ctx block key).or
    (if key = "unique_core" then some (.str (escape (page.uniqueCore.getD ""))) else ctx key)

/-! ## The page -/

/-- `sorted(page.blocks, key=lambda b: (b.order ^ (page.seed & 0xFF), b.type))` -/
def sortedBlocks (page : PageManifest) : List BlockDef :=
  let place (block : BlockDef) : Int := Int.xor block.order (page.seed % 256)
  page.blocks.insertionSort (fun b b' =>
    place b < place b' ∨ (place b = place b' ∧ b.type ≤ b'.type))

def blockHtml (sanitize : String → String) (page : PageManifest) (ctx : Context)
    (block : BlockDef) : String :=
  sanitize (fillSlots block.html (blockContext page ctx block))

/-- `re.search(r"<h1(?:\s|>)", html, re.I)` -/
def containsH1 (html : String) : Bool :=
  searches (letters "<h1" ++ [.spaceOrClose]) html.toList

/-- The parts of the body that a block adds. -/
def blockParts (page : PageManifest) (mediaUrls : Dict String) (block : BlockDef) (html : String) :
    List String :=
  ("<section class=\"" ++ escape block.hashClass ++ "\" data-block=\"" ++ escape block.type ++
    "\">" ++ html ++ "</section>") :: (blockMediaHtml page mediaUrls block).toList

def headHtml (site : SiteManifest) (page : PageManifest) (mediaUrls : Dict String)
    (title metaText css : String) : String :=
  "<!DOCTYPE html>\n<html lang=\"" ++ escape site.locale ++
    "\">\n<head>\n  <meta charset=\"utf-8\">\n" ++
    "  <meta name=\"viewport\" content=\"width=device-width, initial-scale=1\">\n  <title>" ++
    title ++ "</title>\n  <meta name=\"description\" content=\"" ++ metaText ++
    "\">\n  <link rel=\"canonical\" href=\"" ++ escape (pageUrl site.domain page.slug) ++
    "\">\n" ++ faviconHtml site mediaUrls ++ "  <style>" ++ css ++ "</style>\n</head>\n"

def bodyHtml (site : SiteManifest) (mediaUrls : Dict String) (h1Html uniqueHtml body
    author : String) : String :=
  "<body>\n  " ++ logoHtml site mediaUrls ++ "\n  <main>\n    " ++ h1Html ++ "\n    " ++
    uniqueHtml ++ "\n    " ++ body ++ "\n    " ++ author ++
    "\n    <footer><a href=\"/sitemap/\">Карта сайта</a></footer>\n  </main>\n</body>\n</html>\n"

def renderPage (sanitize : String → String) (site : SiteManifest) (page : PageManifest)
    (context : Dict Value) (mediaUrls : Dict String) : String :=
  let ctx := pageContext site context
  let title := escape (fillSlots page.titleTemplate ctx)
  let h1 := escape (fillSlots page.h1Template ctx)
  let metaText := escape (fillSlots page.metaDescriptionTemplate ctx)
  let unique := escape (page.uniqueCore.getD "")
  let blocks := sortedBlocks page
  let hasHero := blocks.any (fun block => block.type == "hero")
  let hasH1 := blocks.any (fun block => containsH1 (blockHtml sanitize page ctx block))
  let bodyParts := blocks.flatMap (fun block =>
    blockParts page mediaUrls block (blockHtml sanitize page ctx block))
  let media := mediaHtml page mediaUrls
  let body := joinLines (if media = "" then bodyParts else bodyParts ++ [media])
  let h1Html := if hasH1 then "" else "<h1>" ++ h1 ++ "</h1>"
  let uniqueHtml :=
    if hasHero ∨ unique = "" then "" else "<p class=\"unique-core\">" ++ unique ++ "</p>"
  let author := (page.author.map (authorHtml mediaUrls)).getD ""
  headHtml site page mediaUrls title metaText (cssText site blocks) ++
    bodyHtml site mediaUrls h1Html uniqueHtml body author

end MegaPanel.Rendering

import MegaPanel.StaticSite.Pages

set_option autoImplicit false

/-! # The legal pack

The three documents that `write_legal_pack` (`site_panel_ssg/legal.py`) puts beside the pages of
a site. They have one frame, around paragraphs of their own. -/

namespace MegaPanel.StaticSite

open MegaPanel.Lib
open MegaPanel.Rendering (Value Dict slotText joinLines escape)

/-- `bool(value)` -/
def isTruthy : Option Value → Bool
  | some (.str text) => text ≠ ""
  | some (.other truthy _) => truthy
  | _ => false

/-- `str(value or default)` -/
def orText (value : Option Value) (default : String) : String :=
  if isTruthy value then slotText value else default

/-- `_legal_telemetry_tag` -/
def legalTelemetryTag (token : String) : String :=
  if token = "" then ""
  else "<script src=\"/site-panel-telemetry.js\" data-telemetry-token=\"" ++ escape token ++
    "\" defer></script>"

/-- `_favicon_tag` -/
def faviconTag (url : Option String) : String :=
  match url.filter (· ≠ "") with
  | none => ""
  | some url => "<link rel=\"icon\" type=\"image/webp\" href=\"" ++ escape url ++ "\">"

/-- The frame of the documents. -/
def legalDocument (title : String) (faviconUrl : Option String) (token : String)
    (body : List String) : String :=
  "<!DOCTYPE html>\n<html lang=\"ru\"><head>\n<meta charset=\"utf-8\">" ++
    "<meta name=\"robots\" content=\"noindex, follow\">\n" ++ faviconTag faviconUrl ++
    "\n<title>" ++ title ++ "</title></head>\n<body>\n<h1>" ++ title ++ "</h1>\n" ++
    joinLines body ++ "\n<script src=\"/cookie-banner.js\" defer></script>\n" ++
    legalTelemetryTag token ++ "\n</body></html>\n"

def renderPrivacy (org : Dict Value) (jurisdiction token : String) (rawDays aggregateDays : Int)
    (faviconUrl : Option String) : String :=
  let name := escape (orText (org.lookup "org") (orText (org.lookup "name") "Оператор"))
  let inn := escape (orText (org.lookup "inn") "—")
  let email := escape (orText (org.lookup "privacy_email") "не указан")
  let address := escape (orText (org.lookup "address") "—")
  legalDocument "Политика конфиденциальности" faviconUrl token
    ["<p>Оператор: " ++ name ++ ", ИНН " ++ inn ++ ", адрес " ++ address ++ ".</p>",
     "<p>Юрисдикция: " ++ escape jurisdiction ++ ". Контакт по ПДн: " ++ email ++ ".</p>",
     "<p>Персональные данные обрабатываются на основании согласия / договора.",
     "Субъект вправе запросить доступ, исправление или удаление (DSAR).</p>",
     "<p>При отдельном согласии на аналитику сайт сохраняет тип события, путь страницы,",
     "дату и псевдонимный идентификатор сессии. IP-адрес, текст заявок и параметры URL",
     "в события аналитики не записываются. Сырые события хранятся " ++ toString rawDays ++
       " завершённых",
     "календарных дней UTC (допустимая настройка 7–90 дней) и удаляются ежедневной",
     "задачей. Суточные итоги без идентификатора сессии хранятся " ++ toString aggregateDays ++
       " дней",
     "(допустимая настройка 90–730 дней) и также удаляются ежедневной задачей. При остановке",
     "сервера очистка задерживается до возобновления его работы.</p>",
     "<p>Согласие можно отозвать через «Настройки приватности» на сайте. Сбор прекращается,",
     "доступные сырые события этой сессии удаляются при связи с сервером; суточные",
     "итоги после удаления сырых записей не привязаны к сессии и отдельно не удаляются.",
     "Если нет соединения, сайт повторяет запрос на удаление при следующем посещении",
     "в той же вкладке. Сигналы GPC и DNT отключают аналитику.</p>",
     "<p>Подробнее: <a href=\"/cookie-policy/\">политика cookie</a>.</p>",
     "<p><em>Шаблон — требуется юридическое ревью перед публикацией.</em></p>"]

def renderTerms (org : Dict Value) (token : String) (faviconUrl : Option String) : String :=
  let name := escape (orText (org.lookup "org") "Исполнитель")
  legalDocument "Пользовательское соглашение" faviconUrl token
    ["<p>Услуги оказывает " ++ name ++
       ". Используя сайт, вы соглашаетесь с условиями оказания услуг.</p>",
     "<p><em>Шаблон — требуется юридическое ревью.</em></p>"]

def renderCookies (token : String) (faviconUrl : Option String) : String :=
  legalDocument "Политика cookie" faviconUrl token
    ["<p>Необходимые данные поддерживают работу сайта. Аналитика включается только",
     "после отдельного выбора «Разрешить аналитику». Для этой цели браузер хранит",
     "согласие в localStorage, а случайный идентификатор сессии — в sessionStorage.",
     "На сервер передаётся только криптографический отпечаток идентификатора.</p>",
     "<p>Кнопка «Настройки приватности» доступна на страницах сайта. Выберите",
     "«Только необходимые», чтобы прекратить аналитику и удалить доступные сырые",
     "события этой сессии. Если сервер недоступен, запрос повторяется при следующем",
     "посещении в той же вкладке. Техническая отметка отзыва на сервере хранится",
     "24 часа и затем удаляется ежедневной очисткой. GPC/DNT запрещают сбор независимо",
     "от выбора в браузере.</p>",
     "<p><a href=\"/privacy/\">Политика конфиденциальности</a>.</p>"]

/-- The slugs of the documents. -/
def legalSlugs : List String := ["privacy", "terms", "cookie-policy"]

/-- `write_legal_pack` -/
def writeLegalPack (cookieBannerJs : String) (org : Dict Value) (token : String)
    (rawDays aggregateDays : Int) (faviconUrl : Option String) : Except Raised Writes :=
  if ¬ (7 ≤ rawDays ∧ rawDays ≤ 90) ∨ ¬ (90 ≤ aggregateDays ∧ aggregateDays ≤ 730) then
    .error (.valueError "Telemetry retention policy is outside the supported range")
  else
    .ok [("privacy/index.html", utf8 (renderPrivacy org
            (orText (org.lookup "jurisdiction") "152-FZ") token rawDays aggregateDays faviconUrl)),
         ("terms/index.html", utf8 (renderTerms org token faviconUrl)),
         ("cookie-policy/index.html", utf8 (renderCookies token faviconUrl)),
         ("cookie-banner.js", utf8 cookieBannerJs)]

end MegaPanel.StaticSite

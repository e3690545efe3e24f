import MegaPanel.Lib.Json
import MegaPanel.Lib.Substitute
import MegaPanel.Lib.Text

set_option autoImplicit false

/-! # What an external provider is shown

`redact_pii` (`services/ai_engine.py`) and `safe_provider_context`
(`services/ai_data_policy.py`). Each regular expression is a function on lists of characters. The
patterns of `redact_pii` leave no choice to the matcher but where the last digit of a phone number is,
and the match is the longest one.

The classes of Unicode characters are those of Python, a parameter (`CharClasses`) of which only the
ASCII characters are known. White space is `Text.isSpace`.
-/

namespace MegaPanel.Redaction

open MegaPanel.Lib MegaPanel.Lib.Text

/-! ## Characters -/

/-- `\d`, `\w`, and whether a character matches a letter of a pattern with `re.IGNORECASE`. -/
structure CharClasses where
  decimal : Char → Bool
  word : Char → Bool
  caseless : Char → Char → Bool
  decimal_ascii : ∀ c : Char, c.toNat < 128 → decimal c = c.isDigit
  word_ascii : ∀ c : Char, c.toNat < 128 → word c = (c.isAlphanum || c == '_')
  caseless_ascii : ∀ l c : Char, c.toNat < 128 → caseless l c = (l.toLower == c.toLower)

variable (R : CharClasses)

/-! ## Phone numbers and addresses -/

/-- `[\d\-\s\(\)]` -/
def CharClasses.phoneChar (c : Char) : Bool :=
  R.decimal c || c == '-' || isSpace c || c == '(' || c == ')'

/-- The length of the longest beginning that ends with a digit. -/
def CharClasses.upToDigit (run : List Char) : Nat := (run.rdropWhile (fun c => !R.decimal c)).length

/-- The match of `\d[\d\-\s\(\)]{8,}\d`. -/
def CharClasses.digitsLength : List Char → Nat
  | [] => 0
  | d :: rest =>
    let n := R.upToDigit (rest.takeWhile R.phoneChar)
    if R.decimal d && decide (9 ≤ n) then n + 1 else 0

/-- The match of `\+?\d[\d\-\s\(\)]{8,}\d`. -/
def CharClasses.phoneLength : List Char → Nat
  | '+' :: rest =>
    let n := R.digitsLength rest
    if n = 0 then 0 else n + 1
  | text => R.digitsLength text

/-- `[\w.+-]` -/
def CharClasses.localChar (c : Char) : Bool := R.word c || c == '.' || c == '+' || c == '-'

/-- `[\w-]` -/
def CharClasses.hostChar (c : Char) : Bool := R.word c || c == '-'

/-- `[\w.-]` -/
def CharClasses.domainChar (c : Char) : Bool := R.word c || c == '.' || c == '-'

/-- The match of `[\w.+-]+@[\w-]+\.[\w.-]+`; no class contains the character that ends it. -/
def CharClasses.emailLength (text : List Char) : Nat :=
  let name := text.takeWhile R.localChar
  match text.dropWhile R.localChar with
  | '@' :: rest =>
    let host := rest.takeWhile R.hostChar
    match rest.dropWhile R.hostChar with
    | '.' :: rest =>
      let domain := rest.takeWhile R.domainChar
      if name = [] ∨ host = [] ∨ domain = [] then 0
      else name.length + 1 + host.length + 1 + domain.length
    | _ => 0
  | _ => 0

def redactPhones (text : List Char) : List Char := substitute R.phoneLength "[phone]".toList text

def redactEmails (text : List Char) : List Char := substitute R.emailLength "[email]".toList text

/-- `redact_pii` -/
def redactPii (text : String) : String :=
  String.ofList (redactEmails R (redactPhones R text.toList))

/-! ## Credentials and sensitive fields -/

/-- What follows the letters, if the text begins with them. -/
def CharClasses.literal : List Char → List Char → Option (List Char)
  | [], text => some text
  | _ :: _, [] => none
  | l :: ls, c :: cs => if R.caseless l c then literal ls cs else none

/-- The same for words with at most one separator between two of them. -/
def CharClasses.words (separator : Char → Bool) : List (List Char) → List Char → Option (List Char)
  | [], text => some text
  | [w], text => R.literal w text
  | w :: ws, text =>
    (R.literal w text).bind (fun rest =>
      match rest with
      | c :: cs => words separator ws (if separator c then cs else c :: cs)
      | [] => none)

/-- `(?:api[_ -]?key|password|secret|token)\s*[:=]` -/
def CharClasses.labelled (text : List Char) : Bool :=
  ([["api", "key"], ["password"], ["secret"], ["token"]].any (fun label =>
    (R.words (fun c => c == '_' || c == ' ' || c == '-') (label.map String.toList) text).any
      (fun rest => (rest.dropWhile isSpace).head?.any (fun c => c == ':' || c == '='))))

/-- `Bearer\s+\S+` -/
def CharClasses.bearer (text : List Char) : Bool :=
  (R.literal "Bearer".toList text).any (fun rest =>
    rest.head?.any isSpace && !(rest.dropWhile isSpace).isEmpty)

/-- `[A-Za-z0-9_-]` -/
def CharClasses.keyChar (c : Char) : Bool :=
  ('0' ≤ c && c ≤ '9') || c == '_' || c == '-'
    || "abcdefghijklmnopqrstuvwxyz".toList.any (fun l => R.caseless l c)

/-- `sk-[A-Za-z0-9_-]{12,}` -/
def CharClasses.secretKey (text : List Char) : Bool :=
  (R.literal "sk-".toList text).any (fun rest => decide (12 ≤ (rest.takeWhile R.keyChar).length))

/-- A match of `_CREDENTIAL` at the beginning of the text; `before` is the character in front. -/
def CharClasses.credentialAt (before : Option Char) (text : List Char) : Bool :=
  -- every alternative begins with `\b`
  (before.any R.word != text.head?.any R.word)
    && (R.labelled text || R.bearer text || R.secretKey text)

/-- `_CREDENTIAL.search(text)` -/
def CharClasses.credential : Option Char → List Char → Bool
  | _, [] => false
  | before, c :: cs => R.credentialAt before (c :: cs) || credential (some c) cs

/-- The alternatives of `_SENSITIVE_KEY`. -/
def sensitiveKeys : List (List String) :=
  [["api", "key"], ["password"], ["secret"], ["token"], ["access", "token"], ["email"], ["phone"],
    ["lead", "id"], ["private", "lead", "email"]]

/-- `_SENSITIVE_KEY.fullmatch(key)` -/
def CharClasses.sensitiveKey (key : String) : Bool :=
  sensitiveKeys.any (fun name =>
    R.words (fun c => c == '_' || c == '-') (name.map String.toList) key.toList = some [])

/-! ## The policy -/

mutual

/-- `safe_provider_context`; an error is a `ValueError`. -/
def safeProviderContext : Json → Except String Json
  | .str s =>
    if R.credential none s.toList then
      .error "External AI context contains credential-like data"
    else .ok (.str (redactPii R s))
  | .list items =>
    match safeItems items with
    | .ok items => .ok (.list items)
    | .error e => .error e
  | .dict entries =>
    if entries.any (fun e => R.sensitiveKey e.1) then
      .error "External AI context contains sensitive field names"
    else
      match safeEntries entries with
      | .ok entries => .ok (.dict entries)
      | .error e => .error e
  | .null => .ok .null
  | .bool b => .ok (.bool b)
  | .int n => .ok (.int n)
  | .float text => .ok (.float text)

def safeItems : List Json → Except String (List Json)
  | [] => .ok []
  | v :: items =>
    match safeProviderContext v with
    | .error e => .error e
    | .ok v =>
      match safeItems items with
      | .error e => .error e
      | .ok items => .ok (v :: items)

def safeEntries : List (String × Json) → Except String (List (String × Json))
  | [] => .ok []
  | (key, v) :: entries =>
    match safeProviderContext v with
    | .error e => .error e
    | .ok v =>
      match safeEntries entries with
      | .error e => .error e
      | .ok entries => .ok ((key, v) :: entries)

end

mutual

/-- The strings of a value, without the keys, in order. -/
def strings : Json → List String
  | .str s => [s]
  | .list items => itemStrings items
  | .dict entries => entryStrings entries
  | .null | .bool _ | .int _ | .float _ => []

def itemStrings : List Json → List String
  | [] => []
  | v :: items => strings v ++ itemStrings items

def entryStrings : List (String × Json) → List String
  | [] => []
  | (_, v) :: entries => strings v ++ entryStrings entries

end

/-- The ASCII characters, and no others. -/
def asciiClasses : CharClasses where
  decimal := Char.isDigit
  word := fun c => c.isAlphanum || c == '_'
  caseless := fun l c => l.toLower == c.toLower
  decimal_ascii := fun _ _ => rfl
  word_ascii := fun _ _ => rfl
  caseless_ascii := fun _ _ _ => rfl

example : redactPii asciiClasses "Ремонт: +79991234567, lead@example.test"
    = "Ремонт: [phone], [email]" := by decide +kernel

example : ["Bearer abc123", "api_key=private-value", "sk-1234567890123456"].all (fun text =>
    asciiClasses.credential none text.toList) = true := by decide +kernel

end MegaPanel.Redaction

import MegaPanel.Basic
import MegaPanel.Lib.Dict
import MegaPanel.Lib.Table
import MegaPanel.Lib.Text
import MegaPanel.Lib.TextFile

set_option autoImplicit false

/-! # Importing keywords

`api/v1/keywords.py`: a tenant's keywords come from a CSV file or from a JSON body. A file is
parsed, its phrases are normalized, and those the tenant does not have yet are stored; a preview
does the same and stores nothing. What a tenant has is read at the start of a request and the new
rows become visible at its commit, so two imports may overlap: reading and committing are two
steps of the system.

`csv.reader` is a parameter: the rows it yields for a text, and whether a `csv.Error` follows
them. `csv.DictReader` is modelled over it. `str.lower` is a parameter, and so is what the index
on the normalized phrase can hold.
-/

namespace MegaPanel.Keywords

open MegaPanel.Lib

/-! ## Rows and files -/

/-- `Keyword` -/
structure Keyword where
  tenantId : TenantId
  phrase : List Char
  normalized : List Char
  category : Option (List Char)
  metaData : List (List Char × List Char)
  deriving DecidableEq

/-- One row of a CSV file. -/
abbrev CsvRow := List (List Char)

structure Library where
  lower : List Char → List Char
  /-- `csv.reader`: the rows, and whether they end in a `csv.Error`. -/
  reader : Char → List Char → List CsvRow × Bool
  /-- The index on `normalized` can hold the text. -/
  indexable : List Char → Bool

/-- The columns of the form. -/
structure ColumnMap where
  group : List Char
  frequency : List Char
  intent : List Char
  city : List Char
  priority : List Char

/-- The form of an upload. -/
structure Upload where
  file : List UInt8
  phraseColumn : List Char
  columnMap : ColumnMap
  delimiter : List Char

/-- An item of an import. -/
structure ImportItem where
  phrase : List Char
  category : Option (List Char)
  metaData : List (List Char × List Char)
  deriving DecidableEq

/-- An entry of `errors`. -/
structure RowError where
  line : Nat
  error : String
  deriving DecidableEq

def emptyPhrase (line : Nat) : RowError := ⟨line, "Empty phrase"⟩

/-! ## Parsing -/

/-- `_WS.sub(" ", text)` -/
def collapseSpace : List Char → List Char
  | [] => []
  | c :: cs =>
    if Text.isSpace c then
      if (cs.head?.map Text.isSpace).getD false then collapseSpace cs
      else ' ' :: collapseSpace cs
    else c :: collapseSpace cs

/-- `text.strip()` -/
def strip (text : List Char) : List Char := Text.stripBy Text.isSpace text

/-- `normalize_phrase` -/
def normalizePhrase (lib : Library) (phrase : List Char) : List Char :=
  collapseSpace (lib.lower (strip phrase))

inductive ParseError
  /-- `ValueError` -/
  | valueError (message : String)
  | csvError
  deriving DecidableEq

def maxImportBytes : Nat := 10 * 1024 * 1024
def maxImportRows : Nat := 100000

/-- `raw.decode("utf-8-sig")` -/
def decodeUtf8Sig (raw : List UInt8) : Option (List Char) :=
  (decodeUtf8 (if [0xef, 0xbb, 0xbf].isPrefixOf raw then raw.drop 3 else raw)).map String.toList

/-- The dictionary that `DictReader` makes of a row; cells beyond the header are under the key
`None`, which nothing looks up. -/
def sourceRow (fieldnames : CsvRow) (row : CsvRow) : List (List Char × Option (List Char)) :=
  fieldnames.zip (row.map some) ++ (fieldnames.drop row.length).map (fun name => (name, none))

/-- `(source.get(column) or "").strip()` -/
def cell (fieldnames row : CsvRow) (column : List Char) : List Char :=
  strip (((dictGet (sourceRow fieldnames row) column).getD none).getD [])

/-- The entries of `column_map` besides the group. -/
def ColumnMap.metaColumns (map : ColumnMap) : List (List Char × List Char) :=
  [("frequency".toList, map.frequency), ("intent".toList, map.intent), ("city".toList, map.city),
   ("priority".toList, map.priority)]

/-- The item of a row. -/
def itemOf (map : ColumnMap) (phraseColumn : List Char) (fieldnames row : CsvRow) : ImportItem where
  phrase := cell fieldnames row phraseColumn
  category := if map.group ≠ [] then some (cell fieldnames row map.group) else none
  metaData := map.metaColumns.filterMap (fun (key, column) =>
    if column ≠ [] ∧ cell fieldnames row column ≠ [] then some (key, cell fieldnames row column)
    else none)

/-- The loop over the records; `line` is the number of the next one. -/
def scanRows (map : ColumnMap) (phraseColumn : List Char) (fieldnames : CsvRow) (failed : Bool) :
    Nat → List CsvRow → List ImportItem → List RowError →
      Except ParseError (List ImportItem × List RowError)
  | _, [], rows, errors => if failed then .error .csvError else .ok (rows, errors)
  | line, source :: rest, rows, errors =>
    if line > maxImportRows + 1 then .error (.valueError "CSV exceeds 100000 rows")
    else if cell fieldnames source phraseColumn = [] then
      scanRows map phraseColumn fieldnames failed (line + 1) rest rows
        (if errors.length < 100 then errors ++ [emptyPhrase line] else errors)
    else
      scanRows map phraseColumn fieldnames failed (line + 1) rest
        (rows ++ [itemOf map phraseColumn fieldnames source]) errors

/-- The records of `DictReader`: rows after the header that are not blank. -/
def records (rows : List CsvRow) : List CsvRow := rows.tail.filter (fun row => row ≠ [])

/-- The message of a missing column. -/
def columnRequired (phraseColumn : List Char) : String :=
  "Column '" ++ String.ofList phraseColumn ++ "' is required"

/-- `parse_keyword_csv` up to its loop: the header, the records, and whether a `csv.Error`
follows them. -/
def openCsv (lib : Library) (raw : List UInt8) (delimiter phraseColumn : List Char) :
    Except ParseError (CsvRow × List CsvRow × Bool) :=
  if raw.length > maxImportBytes then .error (.valueError "File exceeds 10 MB")
  else
    match delimiter with
    | [d] =>
      if d ∉ [',', ';', '\t'] then .error (.valueError "Unsupported CSV delimiter")
      else
        match decodeUtf8Sig raw with
        | none => .error (.valueError "CSV must be UTF-8 encoded")
        | some text =>
          match lib.reader d text with
          | ([], true) => .error .csvError
          | (rows, failed) =>
            let fieldnames := rows.head?.getD []
            if fieldnames = [] ∨ phraseColumn ∉ fieldnames then
              .error (.valueError (columnRequired phraseColumn))
            else .ok (fieldnames, records rows, failed)
    | _ => .error (.valueError "Unsupported CSV delimiter")

/-- `parse_keyword_csv` -/
def parseKeywordCsv (lib : Library) (raw : List UInt8) (delimiter phraseColumn : List Char)
    (map : ColumnMap) : Except ParseError (List ImportItem × List RowError) := do
  let (fieldnames, recs, failed) ← openCsv lib raw delimiter phraseColumn
  scanRows map phraseColumn fieldnames failed 2 recs [] []

/-! ## Storing -/

/-- The normalized phrases of a tenant. -/
def existingPhrases (keywords : List Keyword) (tenant : TenantId) : List (List Char) :=
  (keywords.filter (fun k => k.tenantId = tenant)).map (·.normalized)

/-- The row of an item. -/
def keywordOf (lib : Library) (tenant : TenantId) (item : ImportItem) : Keyword where
  tenantId := tenant
  phrase := strip item.phrase
  normalized := normalizePhrase lib item.phrase
  category := item.category
  metaData := item.metaData

/-- `save_keywords`: the rows added to the session, `created` and `skipped`. -/
def saveKeywords (lib : Library) (tenant : TenantId) :
    List (List Char) → List ImportItem → List Keyword × Nat × Nat
  | _, [] => ([], 0, 0)
  | existing, item :: items =>
    let normalized := normalizePhrase lib item.phrase
    if normalized = [] ∨ normalized ∈ existing then
      let (added, created, skipped) := saveKeywords lib tenant existing items
      (added, created, skipped + 1)
    else
      let (added, created, skipped) := saveKeywords lib tenant (normalized :: existing) items
      (keywordOf lib tenant item :: added, created + 1, skipped)

structure Preview where
  created : Nat
  skipped : Nat
  invalidRows : Nat
  errors : List RowError
  preview : List ImportItem

/-- The loop of `preview_keywords`: `created`, `skipped` and what is listed. -/
def previewLoop (lib : Library) : List (List Char) → List ImportItem → Nat → Nat →
    List ImportItem → Nat × Nat × List ImportItem
  | _, [], created, skipped, preview => (created, skipped, preview)
  | existing, item :: items, created, skipped, preview =>
    let normalized := normalizePhrase lib item.phrase
    if normalized = [] ∨ normalized ∈ existing then
      previewLoop lib existing items created (skipped + 1) preview
    else
      previewLoop lib (normalized :: existing) items (created + 1) skipped
        (if preview.length < 50 then preview ++ [{ item with phrase := strip item.phrase }]
          else preview)

/-- `preview_keywords` -/
def previewKeywords (lib : Library) (existing : List (List Char)) (items : List ImportItem)
    (errors : List RowError) : Preview :=
  let (created, skipped, preview) := previewLoop lib existing items 0 0 []
  ⟨created, skipped, errors.length, errors, preview⟩

/-! ## The routes -/

inductive Failure
  | http (e : HttpError)
  | csvError
  /-- The database refuses a row at the flush. -/
  | database
  deriving DecidableEq

/-- The failure is an answer that blames the request. -/
def Failure.IsClientError : Failure → Prop
  | .http e => 400 ≤ e.status ∧ e.status < 500
  | _ => False

/-- What a text column can hold. -/
def storable (text : List Char) : Bool := decide (Char.ofNat 0 ∉ text)

/-- The table accepts the row. -/
def Keyword.fits (lib : Library) (k : Keyword) : Bool :=
  storable k.phrase && storable k.normalized && lib.indexable k.normalized &&
    k.category.all (fun category => decide (category.length ≤ 255) && storable category) &&
    k.metaData.all (fun entry => storable entry.2)

/-- What the routes make of an error of `parse_keyword_csv`: a `ValueError` becomes an answer. -/
def ParseError.raised : ParseError → Failure
  | .valueError message => .http ⟨400, message⟩
  | .csvError => .csvError

/-- Both routes read the file alike. -/
def readUpload (lib : Library) (upload : Upload) :
    Except Failure (List ImportItem × List RowError) :=
  match parseKeywordCsv lib (upload.file.take (maxImportBytes + 1)) upload.delimiter
      upload.phraseColumn upload.columnMap with
  | .ok parsed => .ok parsed
  | .error e => .error e.raised

def scopeRequired : HttpError := ⟨403, "Operator scope required"⟩

/-- `operator_scope` -/
def operatorScope (tenant : Option TenantId) : Except Failure TenantId :=
  match tenant with
  | some t => .ok t
  | none => .error (.http scopeRequired)

/-- `preview_keywords_csv` -/
def previewKeywordsCsv (lib : Library) (keywords : List Keyword) (tenant : Option TenantId)
    (upload : Upload) : Except Failure Preview := do
  let t ← operatorScope tenant
  let (items, errors) ← readUpload lib upload
  .ok (previewKeywords lib (existingPhrases keywords t) items errors)

/-- What an import returns, and the rows it adds. -/
structure Imported where
  added : List Keyword
  created : Nat
  skipped : Nat
  invalidRows : Nat
  errors : List RowError

/-- The rows of an import, flushed. -/
def flushImport (lib : Library) (keywords : List Keyword) (tenant : TenantId)
    (items : List ImportItem) (errors : List RowError) : Except Failure Imported :=
  let (added, created, skipped) := saveKeywords lib tenant (existingPhrases keywords tenant) items
  if added.all (Keyword.fits lib) then .ok ⟨added, created, skipped, errors.length, errors⟩
  else .error .database

/-- `import_keywords_csv` up to its commit. -/
def importKeywordsCsv (lib : Library) (keywords : List Keyword) (tenant : Option TenantId)
    (upload : Upload) : Except Failure Imported := do
  let t ← operatorScope tenant
  let (items, errors) ← readUpload lib upload
  flushImport lib keywords t items errors

/-- `import_keywords` up to its commit; its items have no metadata. -/
def importKeywords (lib : Library) (keywords : List Keyword) (tenant : Option TenantId)
    (items : List (List Char × Option (List Char))) : Except Failure Imported := do
  let t ← operatorScope tenant
  flushImport lib keywords t (items.map (fun item => ⟨item.1, item.2, []⟩)) []

/-! ## The system -/

abbrev SessionId := Nat

/-- The committed rows, and the rows flushed by the open sessions. -/
structure State where
  keywords : List Keyword
  flushed : Table SessionId (List Keyword)

inductive Action
  | preview (tenant : Option TenantId) (upload : Upload)
  | importCsv (session : SessionId) (tenant : Option TenantId) (upload : Upload)
  | importJson (session : SessionId) (tenant : Option TenantId)
      (items : List (List Char × Option (List Char)))
  | commit (session : SessionId)
  /-- The session ends without its commit. -/
  | rollback (session : SessionId)

/-- A session keeps what it has flushed until its commit. -/
def State.hold (s : State) (session : SessionId) (result : Except Failure Imported) :
    Option State :=
  if (s.flushed.get session).isSome then none
  else
    match result with
    | .ok imported => some { s with flushed := s.flushed.set session imported.added }
    | .error _ => some s

def step (lib : Library) (s : State) : Action → Option State
  | .preview _ _ => some s
  | .importCsv session tenant upload =>
    s.hold session (importKeywordsCsv lib s.keywords tenant upload)
  | .importJson session tenant items =>
    s.hold session (importKeywords lib s.keywords tenant items)
  | .commit session =>
    (s.flushed.get session).map (fun added =>
      { keywords := s.keywords ++ added, flushed := s.flushed.erase session })
  | .rollback session => some { s with flushed := s.flushed.erase session }

end MegaPanel.Keywords

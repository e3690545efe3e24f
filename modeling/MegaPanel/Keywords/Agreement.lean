import MegaPanel.Keywords.Import
import MegaPanel.Lib.Run

set_option autoImplicit false

/-! # The preview and the import

The preview of a file should say what its import does: the same refusal or the same counts, each
record counted once, and the first phrases that are created; a second import should create
nothing, and a tenant should never have a phrase twice. Both loops do the same with the same
phrases (`previewLoop_eq`), so they agree wherever the import gets as far. What goes wrong is a
file that `csv` does not read to its end, more empty phrases than the list of errors holds, rows
the table refuses, which the preview never meets, and an import that commits a phrase which
another one has committed since the tenant's phrases were read.
-/

namespace MegaPanel.Keywords

open MegaPanel.Lib

/-! ## The loop over the records -/

variable {errors : List RowError}

/-- The record has an empty phrase. -/
def isEmpty (phraseColumn : List Char) (fieldnames row : CsvRow) : Bool :=
  decide (cell fieldnames row phraseColumn = [])

/-- The items of the records with a phrase. -/
def itemsOf (map : ColumnMap) (phraseColumn : List Char) (fieldnames : CsvRow)
    (recs : List CsvRow) : List ImportItem :=
  (recs.filter (fun row => !isEmpty phraseColumn fieldnames row)).map
    (itemOf map phraseColumn fieldnames)

/-- The errors of the records without one, the first record being at `line`. -/
def errorsOf (phraseColumn : List Char) (fieldnames : CsvRow) : Nat → List CsvRow → List RowError
  | _, [] => []
  | line, row :: rest =>
    (if isEmpty phraseColumn fieldnames row then [emptyPhrase line] else []) ++
      errorsOf phraseColumn fieldnames (line + 1) rest

theorem length_errorsOf (phraseColumn : List Char) (fieldnames : CsvRow) (line : Nat)
    (recs : List CsvRow) :
    (errorsOf phraseColumn fieldnames line recs).length =
      (recs.filter (isEmpty phraseColumn fieldnames)).length := by
  induction recs generalizing line with
  | nil => rfl
  | cons row rest ih =>
    rw [errorsOf, List.length_append, ih, List.filter_cons]
    split
    · rw [List.length_cons, List.length_cons, List.length_nil]
      omega
    · rw [List.length_nil]
      omega

/-- A list of at most a hundred errors with one more where there is room. -/
theorem capped_append {more : List RowError} (h : errors.length ≤ 100) (e : RowError) :
    ((if errors.length < 100 then errors ++ [e] else errors) ++ more).take 100 =
      (errors ++ ([e] ++ more)).take 100 := by
  split
  · rw [List.append_assoc]
  · have hfull : errors.length = 100 := by omega
    rw [← hfull, List.take_left, List.take_left]

theorem scanRows_eq (map : ColumnMap) (phraseColumn : List Char) (fieldnames : CsvRow)
    (failed : Bool) (line : Nat) (hline : line ≤ maxImportRows + 2) (recs : List CsvRow)
    (rows : List ImportItem) (errors : List RowError) (herrors : errors.length ≤ 100) :
    scanRows map phraseColumn fieldnames failed line recs rows errors =
      if line + recs.length > maxImportRows + 2 then .error (.valueError "CSV exceeds 100000 rows")
      else if failed then .error .csvError
      else .ok (rows ++ itemsOf map phraseColumn fieldnames recs,
        (errors ++ errorsOf phraseColumn fieldnames line recs).take 100) := by
  induction recs generalizing line rows errors with
  | nil =>
    rw [scanRows, List.length_nil, if_neg (by omega : ¬ line + 0 > maxImportRows + 2)]
    have htake : (errors ++ errorsOf phraseColumn fieldnames line []).take 100 = errors := by
      rw [errorsOf, List.append_nil, List.take_of_length_le herrors]
    rw [htake]
    simp [itemsOf]
  | cons row rest ih =>
    rw [scanRows, List.length_cons]
    by_cases hmax : line > maxImportRows + 1
    · rw [if_pos hmax, if_pos (by omega)]
    rw [if_neg hmax]
    have hnext : line + 1 ≤ maxImportRows + 2 := by omega
    have hsum : line + (rest.length + 1) = line + 1 + rest.length := by omega
    by_cases hempty : cell fieldnames row phraseColumn = []
    · have hcap : (if errors.length < 100 then errors ++ [emptyPhrase line]
          else errors).length ≤ 100 := by
        split
        · rw [List.length_append, List.length_singleton]
          omega
        · exact herrors
      rw [if_pos hempty, ih (line + 1) hnext rows _ hcap, hsum, capped_append herrors]
      simp [itemsOf, errorsOf, isEmpty, hempty]
    · rw [if_neg hempty, ih (line + 1) hnext _ errors herrors, hsum]
      simp [itemsOf, errorsOf, isEmpty, hempty]

/-! ## The loops over the items -/

variable {items : List ImportItem}

section Loops

variable {lib : Library} {tenant : TenantId}

/-- The rows that `save_keywords` adds. -/
def addedBy (lib : Library) (tenant : TenantId) (existing : List (List Char))
    (items : List ImportItem) : List Keyword := (saveKeywords lib tenant existing items).1

/-- How the preview lists a row. -/
def listedItem (k : Keyword) : ImportItem := ⟨k.phrase, k.category, k.metaData⟩

/-- An item is passed over. -/
def Known (lib : Library) (existing : List (List Char)) (item : ImportItem) : Prop :=
  normalizePhrase lib item.phrase = [] ∨ normalizePhrase lib item.phrase ∈ existing

variable {existing : List (List Char)} {item : ImportItem}

theorem saveKeywords_known (h : Known lib existing item) :
    saveKeywords lib tenant existing (item :: items) =
      ((saveKeywords lib tenant existing items).1, (saveKeywords lib tenant existing items).2.1,
        (saveKeywords lib tenant existing items).2.2 + 1) := by
  rw [saveKeywords]
  exact if_pos h

theorem saveKeywords_new (h : ¬ Known lib existing item) :
    saveKeywords lib tenant existing (item :: items) =
      (keywordOf lib tenant item ::
          (saveKeywords lib tenant (normalizePhrase lib item.phrase :: existing) items).1,
        (saveKeywords lib tenant (normalizePhrase lib item.phrase :: existing) items).2.1 + 1,
        (saveKeywords lib tenant (normalizePhrase lib item.phrase :: existing) items).2.2) := by
  rw [saveKeywords]
  exact if_neg h

theorem addedBy_known (h : Known lib existing item) :
    addedBy lib tenant existing (item :: items) = addedBy lib tenant existing items := by
  rw [addedBy, saveKeywords_known h]
  rfl

theorem addedBy_new (h : ¬ Known lib existing item) :
    addedBy lib tenant existing (item :: items) = keywordOf lib tenant item ::
      addedBy lib tenant (normalizePhrase lib item.phrase :: existing) items := by
  rw [addedBy, saveKeywords_new h]
  rfl

/-- `created` counts the rows added, and the other items are skipped. -/
theorem saveKeywords_counts (existing : List (List Char)) (items : List ImportItem) :
    (saveKeywords lib tenant existing items).2.1 = (addedBy lib tenant existing items).length ∧
      (saveKeywords lib tenant existing items).2.1 + (saveKeywords lib tenant existing items).2.2 =
        items.length := by
  induction items generalizing existing with
  | nil => exact ⟨rfl, rfl⟩
  | cons item items ih =>
    by_cases h : Known lib existing item
    · obtain ⟨hcreated, hsum⟩ := ih existing
      rw [saveKeywords_known h, addedBy_known h, List.length_cons]
      exact ⟨hcreated, by dsimp only; omega⟩
    · obtain ⟨hcreated, hsum⟩ := ih (normalizePhrase lib item.phrase :: existing)
      rw [saveKeywords_new h, addedBy_new h, List.length_cons, List.length_cons]
      exact ⟨by dsimp only; omega, by dsimp only; omega⟩

/-- A list of at most fifty items with one more where there is room. -/
theorem listed_append {listed more : List ImportItem} (h : listed.length ≤ 50) (e : ImportItem) :
    ((if listed.length < 50 then listed ++ [e] else listed) ++ more).take 50 =
      (listed ++ e :: more).take 50 := by
  split
  · rw [List.append_assoc, List.singleton_append]
  · have hfull : listed.length = 50 := by omega
    rw [← hfull, List.take_left, List.take_left]

/-- **The preview counts and lists what the import adds.** -/
theorem previewLoop_eq (existing : List (List Char)) (items : List ImportItem)
    (created skipped : Nat) (listed : List ImportItem) (hlisted : listed.length ≤ 50) :
    previewLoop lib existing items created skipped listed =
      (created + (saveKeywords lib tenant existing items).2.1,
        skipped + (saveKeywords lib tenant existing items).2.2,
        (listed ++ (addedBy lib tenant existing items).map listedItem).take 50) := by
  induction items generalizing existing created skipped listed with
  | nil =>
    simp [previewLoop, saveKeywords, addedBy, List.take_of_length_le hlisted]
  | cons item items ih =>
    by_cases h : Known lib existing item
    · have hloop : previewLoop lib existing (item :: items) created skipped listed =
          previewLoop lib existing items created (skipped + 1) listed := by
        rw [previewLoop]
        exact if_pos h
      rw [hloop, ih existing created (skipped + 1) listed hlisted, saveKeywords_known h,
        addedBy_known h, Nat.add_assoc, Nat.add_comm 1]
    · have hcap : (if listed.length < 50 then
            listed ++ [{ item with phrase := strip item.phrase }] else listed).length ≤ 50 := by
        split
        · rw [List.length_append, List.length_singleton]
          omega
        · exact hlisted
      have hloop : previewLoop lib existing (item :: items) created skipped listed =
          previewLoop lib (normalizePhrase lib item.phrase :: existing) items (created + 1) skipped
            (if listed.length < 50 then
              listed ++ [{ item with phrase := strip item.phrase }] else listed) := by
        rw [previewLoop]
        exact if_neg h
      rw [hloop, ih _ (created + 1) skipped _ hcap, saveKeywords_new h, addedBy_new h,
        listed_append hlisted, List.map_cons, Nat.add_assoc, Nat.add_comm 1]
      rfl

variable {k : Keyword}

/-- A row is added for the first item with a phrase that is neither empty nor known. -/
theorem mem_addedBy :
    k ∈ addedBy lib tenant existing items ↔
      ∃ before item after, items = before ++ item :: after ∧ k = keywordOf lib tenant item ∧
        ¬ Known lib existing item ∧
        ∀ x ∈ before, normalizePhrase lib x.phrase ≠ normalizePhrase lib item.phrase := by
  induction items generalizing existing with
  | nil => simp [addedBy, saveKeywords]
  | cons first items ih =>
    by_cases h : Known lib existing first
    · rw [addedBy_known h, ih]
      constructor
      · rintro ⟨before, item, after, rfl, hk, hnew, hbefore⟩
        refine ⟨first :: before, item, after, rfl, hk, hnew, fun x hx => ?_⟩
        rcases List.mem_cons.mp hx with rfl | hx
        · -- a known phrase is not the one of a new item
          intro heq
          apply hnew
          unfold Known at h ⊢
          rwa [heq] at h
        · exact hbefore x hx
      · rintro ⟨before, item, after, hsplit, hk, hnew, hbefore⟩
        cases before with
        | nil =>
          obtain ⟨rfl, -⟩ := List.cons.inj hsplit
          exact absurd h hnew
        | cons b before =>
          obtain ⟨-, rfl⟩ := List.cons.inj hsplit
          exact ⟨before, item, after, rfl, hk, hnew,
            fun x hx => hbefore x (List.mem_cons_of_mem _ hx)⟩
    · rw [addedBy_new h, List.mem_cons, ih]
      constructor
      · rintro (rfl | ⟨before, item, after, rfl, hk, hnew, hbefore⟩)
        · exact ⟨[], first, items, rfl, rfl, h, fun x hx => nomatch hx⟩
        · have hne : normalizePhrase lib first.phrase ≠ normalizePhrase lib item.phrase :=
            fun heq => hnew (.inr (heq ▸ List.mem_cons_self ..))
          refine ⟨first :: before, item, after, rfl, hk,
            fun hknown => hnew (hknown.imp_right (List.mem_cons_of_mem _)), fun x hx => ?_⟩
          rcases List.mem_cons.mp hx with rfl | hx
          · exact hne
          · exact hbefore x hx
      · rintro ⟨before, item, after, hsplit, hk, hnew, hbefore⟩
        cases before with
        | nil =>
          obtain ⟨rfl, -⟩ := List.cons.inj hsplit
          exact .inl hk
        | cons b before =>
          obtain ⟨rfl, rfl⟩ := List.cons.inj hsplit
          refine .inr ⟨before, item, after, rfl, hk, ?_,
            fun x hx => hbefore x (List.mem_cons_of_mem _ hx)⟩
          rintro (hempty | hmem)
          · exact hnew (.inl hempty)
          · rcases List.mem_cons.mp hmem with heq | hmem
            · exact hbefore _ (List.mem_cons_self ..) heq.symm
            · exact hnew (.inr hmem)

theorem tenantId_addedBy (h : k ∈ addedBy lib tenant existing items) : k.tenantId = tenant := by
  obtain ⟨_, _, _, _, rfl, _⟩ := mem_addedBy.mp h
  rfl

/-- The phrases added are new and distinct. -/
theorem nodup_addedBy (existing : List (List Char)) (items : List ImportItem) :
    ((addedBy lib tenant existing items).map (·.normalized)).Nodup ∧
      ∀ k ∈ addedBy lib tenant existing items, k.normalized ∉ existing := by
  induction items generalizing existing with
  | nil => exact ⟨List.nodup_nil, fun k hk => nomatch hk⟩
  | cons item items ih =>
    by_cases h : Known lib existing item
    · rw [addedBy_known h]
      exact ih existing
    obtain ⟨hnodup, hnew⟩ := ih (normalizePhrase lib item.phrase :: existing)
    rw [addedBy_new h]
    constructor
    · rw [List.map_cons, List.nodup_cons]
      refine ⟨fun hmem => ?_, hnodup⟩
      obtain ⟨k, hk, heq⟩ := List.mem_map.mp hmem
      exact hnew k hk (heq ▸ List.mem_cons_self ..)
    · intro k hk
      rcases List.mem_cons.mp hk with rfl | hk
      · exact fun hmem => h (.inr hmem)
      · exact fun hmem => hnew k hk (List.mem_cons_of_mem _ hmem)

/-- Where all phrases are known nothing is added. -/
theorem addedBy_nil_of_known (h : ∀ item ∈ items, Known lib existing item) :
    addedBy lib tenant existing items = [] := by
  induction items with
  | nil => rfl
  | cons item items ih =>
    rw [addedBy_known (h item (List.mem_cons_self ..))]
    exact ih (fun x hx => h x (List.mem_cons_of_mem _ hx))

/-- After the rows are stored every phrase is known. -/
theorem known_after :
    ∀ item ∈ items,
      Known lib (existing ++ (addedBy lib tenant existing items).map (·.normalized)) item := by
  induction items generalizing existing with
  | nil => exact fun item hitem => nomatch hitem
  | cons first items ih =>
    intro item hitem
    by_cases h : Known lib existing first
    · rw [addedBy_known h]
      rcases List.mem_cons.mp hitem with rfl | hitem
      · exact h.imp_right (List.mem_append_left _)
      · exact ih item hitem
    rw [addedBy_new h, List.map_cons]
    rcases List.mem_cons.mp hitem with rfl | hitem
    · exact .inr (List.mem_append_right _ (List.mem_cons_self ..))
    have hknown := @ih (normalizePhrase lib first.phrase :: existing) item hitem
    refine hknown.imp_right (fun hmem => ?_)
    rw [List.cons_append, List.mem_cons, List.mem_append] at hmem
    rw [List.mem_append, List.mem_cons]
    rcases hmem with heq | hmem | hmem
    · exact .inr (.inl heq)
    · exact .inl hmem
    · exact .inr (.inr hmem)

end Loops

/-! ## The property -/

/-- The file of an upload as the routes open it. -/
def opened (lib : Library) (upload : Upload) : Except ParseError (CsvRow × List CsvRow × Bool) :=
  openCsv lib (upload.file.take (maxImportBytes + 1)) upload.delimiter upload.phraseColumn

/-- The records of the file. -/
def recordsOf (lib : Library) (upload : Upload) : List CsvRow :=
  match opened lib upload with
  | .ok (_, recs, _) => recs
  | .error _ => []

/-- What the preview reports is what the import does. -/
structure SameReport (lib : Library) (keywords : List Keyword) (tenant : Option TenantId)
    (upload : Upload) (p : Preview) (r : Imported) : Prop where
  created : p.created = r.created
  skipped : p.skipped = r.skipped
  invalidRows : p.invalidRows = r.invalidRows
  /-- Every record is counted exactly once. -/
  counted : r.created + r.skipped + r.invalidRows = (recordsOf lib upload).length
  listed : p.preview.map (·.phrase) = (r.added.map (·.phrase)).take 50
  /-- The same file again creates nothing. -/
  again : ∃ r', importKeywordsCsv lib (keywords ++ r.added) tenant upload = .ok r' ∧
    r'.created = 0 ∧ r'.added = []

/-- Both routes refuse with the same client error, or both report the same. -/
def Agrees (lib : Library) (keywords : List Keyword) (tenant : Option TenantId)
    (upload : Upload) : Prop :=
  (∃ e : Failure, e.IsClientError ∧ previewKeywordsCsv lib keywords tenant upload = .error e ∧
    importKeywordsCsv lib keywords tenant upload = .error e) ∨
  ∃ p r, previewKeywordsCsv lib keywords tenant upload = .ok p ∧
    importKeywordsCsv lib keywords tenant upload = .ok r ∧
    SameReport lib keywords tenant upload p r

/-- No tenant has a phrase twice. -/
def Distinct (keywords : List Keyword) : Prop :=
  (keywords.map (fun k => (k.tenantId, k.normalized))).Nodup

/-! ## The condition -/

/-- The table accepts the row of every item whose phrase the tenant does not have and no earlier
item has. -/
def NewRowsFit (lib : Library) (keywords : List Keyword) (tenant : TenantId)
    (items : List ImportItem) : Prop :=
  ∀ before item after, items = before ++ item :: after →
    ¬ Known lib (existingPhrases keywords tenant) item →
    (∀ x ∈ before, normalizePhrase lib x.phrase ≠ normalizePhrase lib item.phrase) →
    (keywordOf lib tenant item).fits lib = true

/-- `csv` reads the file to its end, at most a hundred records have no phrase, and the table
accepts the new rows; a file that is refused need not meet this. -/
def Importable (lib : Library) (keywords : List Keyword) (tenant : TenantId) (upload : Upload) :
    Prop :=
  opened lib upload ≠ .error .csvError ∧
    ∀ header recs failed, opened lib upload = .ok (header, recs, failed) →
      recs.length ≤ maxImportRows →
        failed = false ∧ (recs.filter (isEmpty upload.phraseColumn header)).length ≤ 100 ∧
          NewRowsFit lib keywords tenant
            (itemsOf upload.columnMap upload.phraseColumn header recs)

/-! ## One file -/

theorem all_fits_iff {lib : Library} {keywords : List Keyword} {tenant : TenantId} :
    (addedBy lib tenant (existingPhrases keywords tenant) items).all (Keyword.fits lib) = true ↔
      NewRowsFit lib keywords tenant items := by
  rw [List.all_eq_true]
  constructor
  · intro h before item after hsplit hnew hbefore
    exact h _ (mem_addedBy.mpr ⟨before, item, after, hsplit, rfl, hnew, hbefore⟩)
  · intro h k hk
    obtain ⟨before, item, after, hsplit, rfl, hnew, hbefore⟩ := mem_addedBy.mp hk
    exact h before item after hsplit hnew hbefore

theorem existingPhrases_append (keywords added : List Keyword) {tenant : TenantId}
    (h : ∀ k ∈ added, k.tenantId = tenant) :
    existingPhrases (keywords ++ added) tenant =
      existingPhrases keywords tenant ++ added.map (·.normalized) := by
  have hall : added.filter (fun k => k.tenantId = tenant) = added :=
    List.filter_eq_self.mpr (fun k hk => decide_eq_true (h k hk))
  rw [existingPhrases, List.filter_append, List.map_append, hall]
  rfl

theorem isClientError_badRequest (message : String) :
    (Failure.http ⟨400, message⟩).IsClientError := by
  show 400 ≤ 400 ∧ 400 < 500
  omega

theorem readUpload_eq (lib : Library) (upload : Upload) :
    readUpload lib upload =
      match opened lib upload with
      | .error e => .error e.raised
      | .ok (header, recs, failed) =>
        if recs.length > maxImportRows then .error (.http ⟨400, "CSV exceeds 100000 rows"⟩)
        else if failed then .error .csvError
        else .ok (itemsOf upload.columnMap upload.phraseColumn header recs,
          (errorsOf upload.phraseColumn header 2 recs).take 100) := by
  have hparse : parseKeywordCsv lib (upload.file.take (maxImportBytes + 1)) upload.delimiter
      upload.phraseColumn upload.columnMap = opened lib upload >>= fun triple =>
        scanRows upload.columnMap upload.phraseColumn triple.1 triple.2.2 2 triple.2.1 [] [] := rfl
  rw [readUpload, hparse]
  cases hopen : opened lib upload with
  | error e => rfl
  | ok triple =>
    obtain ⟨header, recs, failed⟩ := triple
    have hscan := scanRows_eq upload.columnMap upload.phraseColumn header failed 2 (by decide)
      recs [] [] (Nat.zero_le _)
    have hmax : 2 + recs.length > maxImportRows + 2 ↔ recs.length > maxImportRows := by omega
    rw [List.nil_append, List.nil_append] at hscan
    simp only [hmax] at hscan
    simp only [bind, Except.bind, hscan]
    by_cases hrows : recs.length > maxImportRows
    · simp only [if_pos hrows, ParseError.raised]
    cases failed with
    | true => simp only [if_neg hrows, if_true, ParseError.raised]
    | false => simp only [if_neg hrows, Bool.false_eq_true, if_false]

section Read

variable {lib : Library} {keywords : List Keyword} {t : TenantId} {upload : Upload}

theorem preview_eq (keywords : List Keyword) : previewKeywordsCsv lib keywords (some t) upload =
    readUpload lib upload >>= fun parsed =>
      .ok (previewKeywords lib (existingPhrases keywords t) parsed.1 parsed.2) := rfl

theorem import_eq (keywords : List Keyword) : importKeywordsCsv lib keywords (some t) upload =
    readUpload lib upload >>= fun parsed => flushImport lib keywords t parsed.1 parsed.2 := rfl

theorem agrees_of_read_error {e : Failure} (hread : readUpload lib upload = .error e) :
    Agrees lib keywords (some t) upload ↔ e.IsClientError := by
  unfold Agrees
  rw [preview_eq, import_eq, hread]
  constructor
  · rintro (⟨e', hclient, he, -⟩ | ⟨p, r, hp, -⟩)
    · cases he
      exact hclient
    · cases hp
  · exact fun hclient => .inl ⟨e, hclient, rfl, rfl⟩

theorem flushImport_eq (keywords : List Keyword) (t : TenantId) (items : List ImportItem)
    (errors : List RowError) :
    flushImport lib keywords t items errors =
      if (addedBy lib t (existingPhrases keywords t) items).all (Keyword.fits lib) = true then
        .ok ⟨addedBy lib t (existingPhrases keywords t) items,
          (saveKeywords lib t (existingPhrases keywords t) items).2.1,
          (saveKeywords lib t (existingPhrases keywords t) items).2.2, errors.length, errors⟩
      else .error .database := rfl

/-- A second import of the items finds every phrase. -/
theorem flushImport_again (items : List ImportItem) (errors : List RowError) :
    ∃ r, flushImport lib
        (keywords ++ addedBy lib t (existingPhrases keywords t) items) t items errors = .ok r ∧
      r.created = 0 ∧ r.added = [] := by
  have hadded : addedBy lib t (existingPhrases
      (keywords ++ addedBy lib t (existingPhrases keywords t) items) t) items = [] := by
    rw [existingPhrases_append _ _ (fun k hk => tenantId_addedBy hk)]
    exact addedBy_nil_of_known known_after
  rw [flushImport_eq, hadded]
  refine ⟨_, rfl, ?_, rfl⟩
  rw [(saveKeywords_counts _ _).1, hadded]
  rfl

theorem agrees_of_read_ok (hread : readUpload lib upload = .ok (items, errors)) :
    Agrees lib keywords (some t) upload ↔
      NewRowsFit lib keywords t items ∧
        items.length + errors.length = (recordsOf lib upload).length := by
  obtain ⟨hcreated, hsum⟩ := @saveKeywords_counts lib t (existingPhrases keywords t) items
  have hpreview : previewKeywordsCsv lib keywords (some t) upload =
      .ok (previewKeywords lib (existingPhrases keywords t) items errors) := by
    rw [preview_eq, hread]
    rfl
  have himport : ∀ rows, importKeywordsCsv lib rows (some t) upload =
      flushImport lib rows t items errors := by
    intro rows
    rw [import_eq, hread]
    rfl
  have hloop := @previewLoop_eq lib t (existingPhrases keywords t) items 0 0 [] (Nat.zero_le _)
  rw [← all_fits_iff]
  unfold Agrees
  rw [hpreview, himport, flushImport_eq]
  constructor
  · rintro (⟨e, -, he, -⟩ | ⟨p, r, -, hr, hsame⟩)
    · cases he
    · split at hr
      · next hfits =>
        cases hr
        have hcounted := hsame.counted
        dsimp only at hcounted
        exact ⟨hfits, by omega⟩
      · cases hr
  · rintro ⟨hfits, hcounted⟩
    rw [if_pos hfits]
    refine .inr ⟨_, _, rfl, rfl, ?_⟩
    have hshown : previewKeywords lib (existingPhrases keywords t) items errors =
        ⟨(saveKeywords lib t (existingPhrases keywords t) items).2.1,
          (saveKeywords lib t (existingPhrases keywords t) items).2.2, errors.length, errors,
          ((addedBy lib t (existingPhrases keywords t) items).map listedItem).take 50⟩ := by
      rw [previewKeywords, hloop, Nat.zero_add, Nat.zero_add, List.nil_append]
    rw [hshown]
    refine ⟨rfl, rfl, rfl, ?_, ?_, ?_⟩
    · show _ + _ + errors.length = _
      rw [hsum]
      exact hcounted
    · show (List.take 50 _).map _ = _
      rw [List.map_take, List.map_map]
      rfl
    · rw [himport]
      exact flushImport_again items errors

end Read

/-- **When the preview of a file agrees with its import.** -/
theorem agrees_iff {lib : Library} {keywords : List Keyword} {tenant : Option TenantId}
    {upload : Upload} :
    Agrees lib keywords tenant upload ↔
      ∀ t, tenant = some t → Importable lib keywords t upload := by
  cases tenant with
  | none =>
    refine iff_of_true (.inl ⟨.http scopeRequired, ?_, rfl, rfl⟩) (fun t ht => nomatch ht)
    exact ⟨by decide, by decide⟩
  | some t =>
    simp only [Option.some.injEq, forall_eq']
    have hread := readUpload_eq lib upload
    unfold Importable
    cases hopen : opened lib upload with
    | error e =>
      rw [hopen] at hread
      rw [agrees_of_read_error hread]
      cases e with
      | valueError message =>
        exact iff_of_true (isClientError_badRequest message)
          ⟨(fun h => nomatch h), (fun _ _ _ h => nomatch h)⟩
      | csvError => exact iff_of_false (fun h => h) (fun h => h.1 rfl)
    | ok triple =>
      obtain ⟨header, recs, failed⟩ := triple
      rw [hopen] at hread
      dsimp only at hread
      have hrecords : recordsOf lib upload = recs := by rw [recordsOf, hopen]
      have hcond : ∀ P : CsvRow → List CsvRow → Bool → Prop,
          ((Except.ok (header, recs, failed) :
              Except ParseError (CsvRow × List CsvRow × Bool)) ≠ .error .csvError ∧
            ∀ header' recs' failed', (Except.ok (header, recs, failed) :
                Except ParseError (CsvRow × List CsvRow × Bool)) =
              .ok (header', recs', failed') → P header' recs' failed') ↔
            P header recs failed := by
        intro P
        constructor
        · exact fun h => h.2 header recs failed rfl
        · intro h
          refine ⟨fun he => (nomatch he), fun header' recs' failed' heq => ?_⟩
          cases heq
          exact h
      rw [hcond (fun header recs failed => recs.length ≤ maxImportRows →
        failed = false ∧ (recs.filter (isEmpty upload.phraseColumn header)).length ≤ 100 ∧
          NewRowsFit lib keywords t
            (itemsOf upload.columnMap upload.phraseColumn header recs))]
      by_cases hmax : recs.length > maxImportRows
      · rw [if_pos hmax] at hread
        rw [agrees_of_read_error hread]
        exact iff_of_true (isClientError_badRequest _)
          (fun hle => absurd hle (Nat.not_le.mpr hmax))
      rw [if_neg hmax] at hread
      cases failed with
      | true =>
        rw [agrees_of_read_error hread]
        exact iff_of_false (fun h => h) (fun h => nomatch (h (Nat.not_lt.mp hmax)).1)
      | false =>
        rw [agrees_of_read_ok hread, hrecords]
        have hsplit := List.length_eq_length_filter_add
          (l := recs) (isEmpty upload.phraseColumn header)
        have hitems : (itemsOf upload.columnMap upload.phraseColumn header recs).length =
            (recs.filter (fun row => !isEmpty upload.phraseColumn header row)).length :=
          List.length_map ..
        have herrors : ((errorsOf upload.phraseColumn header 2 recs).take 100).length =
            min 100 (recs.filter (isEmpty upload.phraseColumn header)).length := by
          rw [List.length_take, length_errorsOf]
        rw [hitems, herrors]
        constructor
        · rintro ⟨hfit, hcount⟩ -
          exact ⟨rfl, by omega, hfit⟩
        · intro h
          obtain ⟨-, hempty, hfit⟩ := h (Nat.not_lt.mp hmax)
          exact ⟨hfit, by omega⟩

/-! ## Overlapping imports -/

variable {r : Imported} {s : State} {session : SessionId} {result : Except Failure Imported}

/-- What each session has flushed is distinct and of one tenant. -/
def FlushedDistinct (s : State) : Prop :=
  ∀ session added, s.flushed.get session = some added → Distinct added

/-- The file of the action is imported as its preview says. -/
def AgreesAt (lib : Library) (s : State) : Action → Prop
  | .preview tenant upload => Agrees lib s.keywords tenant upload
  | .importCsv _ tenant upload => Agrees lib s.keywords tenant upload
  | _ => True

/-- No phrase that is committed was committed since the session read the tenant's phrases. -/
def NotOvertaken (s : State) (session : SessionId) : Prop :=
  ∀ added, s.flushed.get session = some added → ∀ k ∈ added, ∀ k' ∈ s.keywords,
    k'.tenantId = k.tenantId → k'.normalized ≠ k.normalized

/-- The condition on an action. -/
def Sound (lib : Library) (s : State) : Action → Prop
  | .preview tenant upload => ∀ t, tenant = some t → Importable lib s.keywords t upload
  | .importCsv _ tenant upload => ∀ t, tenant = some t → Importable lib s.keywords t upload
  | .commit session => NotOvertaken s session
  | _ => True

theorem distinct_addedBy (lib : Library) (tenant : TenantId) (existing : List (List Char))
    (items : List ImportItem) : Distinct (addedBy lib tenant existing items) := by
  have hpairs : (addedBy lib tenant existing items).map (fun k => (k.tenantId, k.normalized)) =
      ((addedBy lib tenant existing items).map (·.normalized)).map (fun phrase => (tenant, phrase)) := by
    rw [List.map_map]
    refine List.map_congr_left (fun k hk => ?_)
    rw [tenantId_addedBy hk]
    rfl
  rw [Distinct, hpairs]
  refine (nodup_addedBy existing items).1.map ?_
  intro p q h
  exact (Prod.mk.inj h).2

theorem distinct_append {keywords added : List Keyword} (hk : Distinct keywords)
    (ha : Distinct added) :
    Distinct (keywords ++ added) ↔ ∀ k ∈ added, ∀ k' ∈ keywords,
      k'.tenantId = k.tenantId → k'.normalized ≠ k.normalized := by
  rw [Distinct, List.map_append, List.nodup_append]
  constructor
  · rintro ⟨-, -, h⟩ k hadded k' hkeyword htenant hphrase
    exact h _ (List.mem_map_of_mem hkeyword) _ (List.mem_map_of_mem hadded)
      (Prod.ext htenant hphrase)
  · intro h
    refine ⟨hk, ha, ?_⟩
    rintro _ hkeyword _ hadded heq
    obtain ⟨k', hk', rfl⟩ := List.mem_map.mp hkeyword
    obtain ⟨k, hk, rfl⟩ := List.mem_map.mp hadded
    obtain ⟨htenant, hphrase⟩ := Prod.mk.inj heq
    exact h k hk k' hk' htenant hphrase

theorem distinct_of_import {lib : Library} {keywords : List Keyword} {t : TenantId}
    (h : flushImport lib keywords t items errors = .ok r) : Distinct r.added := by
  rw [flushImport_eq] at h
  split at h
  · cases h
    exact distinct_addedBy lib t _ items
  · cases h

theorem distinct_of_importCsv {lib : Library} {keywords : List Keyword} {tenant : Option TenantId}
    {upload : Upload} (h : importKeywordsCsv lib keywords tenant upload = .ok r) :
    Distinct r.added := by
  cases tenant with
  | none => cases h
  | some t =>
    rw [import_eq] at h
    obtain ⟨parsed, -, hflush⟩ := bind_eq_ok.mp h
    exact distinct_of_import hflush

theorem distinct_of_importJson {lib : Library} {keywords : List Keyword} {tenant : Option TenantId}
    {items : List (List Char × Option (List Char))}
    (h : importKeywords lib keywords tenant items = .ok r) : Distinct r.added := by
  cases tenant with
  | none => cases h
  | some t => exact distinct_of_import h

/-- What a session flushes is held; everything else stays. -/
theorem hold_cases {t : State} (h : s.hold session result = some t) :
    t = s ∨ ∃ imported, result = .ok imported ∧
      t = { s with flushed := s.flushed.set session imported.added } := by
  unfold State.hold at h
  split_ifs at h
  split at h
  · next imported => exact .inr ⟨imported, rfl, (Option.some.inj h).symm⟩
  · exact .inl (Option.some.inj h).symm

theorem flushedDistinct_hold {t : State} (hs : FlushedDistinct s)
    (hresult : ∀ imported, result = .ok imported → Distinct imported.added)
    (h : s.hold session result = some t) : FlushedDistinct t ∧ t.keywords = s.keywords := by
  rcases hold_cases h with rfl | ⟨imported, hok, rfl⟩
  · exact ⟨hs, rfl⟩
  exact ⟨Table.forall_set hs (hresult imported hok), rfl⟩

/-- A step commits what one session has flushed, or leaves the rows as they are. -/
theorem step_cases {lib : Library} {t : State} {a : Action} (hs : FlushedDistinct s)
    (h : step lib s a = some t) :
    FlushedDistinct t ∧
      ((∃ session added, a = .commit session ∧ s.flushed.get session = some added ∧
          t.keywords = s.keywords ++ added) ∨
        ((∀ session, a ≠ .commit session) ∧ t.keywords = s.keywords)) := by
  have herase : ∀ session, ∀ rows, FlushedDistinct
      { keywords := rows, flushed := s.flushed.erase session } := by
    intro session rows other added hget
    rw [Table.get_erase] at hget
    split_ifs at hget
    exact hs other added hget
  cases a with
  | preview tenant upload =>
    cases h
    exact ⟨hs, .inr ⟨(fun _ h => nomatch h), rfl⟩⟩
  | importCsv session tenant upload =>
    obtain ⟨hkept, hrows⟩ := flushedDistinct_hold hs (fun _ hok => distinct_of_importCsv hok) h
    exact ⟨hkept, .inr ⟨(fun _ h => nomatch h), hrows⟩⟩
  | importJson session tenant items =>
    obtain ⟨hkept, hrows⟩ := flushedDistinct_hold hs (fun _ hok => distinct_of_importJson hok) h
    exact ⟨hkept, .inr ⟨(fun _ h => nomatch h), hrows⟩⟩
  | commit session =>
    obtain ⟨added, hget, rfl⟩ := Option.map_eq_some_iff.mp h
    exact ⟨herase session _, .inl ⟨session, added, rfl, hget, rfl⟩⟩
  | rollback session =>
    cases h
    exact ⟨herase session _, .inr ⟨(fun _ h => nomatch h), rfl⟩⟩

/-- **When keyword imports do what their previews say.** Along a run of previews and overlapping
imports, every file is refused or counted alike by both routes, each record once, with the first
phrases listed and nothing left for a second import, and no tenant has a phrase twice, exactly
when every file is `Importable` and no commit is overtaken by another one. -/
theorem import_agrees_iff (lib : Library) (s : State) (hs : Distinct s.keywords)
    (hflushed : FlushedDistinct s) (actions : List Action) :
    Along (step lib) (fun s a t => AgreesAt lib s a ∧ Distinct t.keywords) s actions ↔
      Along (step lib) (fun s a _ => Sound lib s a) s actions := by
  refine along_conditional_iff (I := fun s => Distinct s.keywords) (J := FlushedDistinct)
    (fun s a t hj ht => (step_cases hj ht).1) (fun s a t h => h.2) ?_ hflushed hs
  intro s a t hj hi ht
  obtain ⟨-, ⟨session, added, rfl, hget, hrows⟩ | ⟨hcommit, hrows⟩⟩ := step_cases hj ht
  · rw [hrows, distinct_append hi (hj session added hget)]
    constructor
    · rintro ⟨-, h⟩ added' hget'
      cases hget.symm.trans hget'
      exact h
    · exact fun h => ⟨trivial, h added hget⟩
  · rw [hrows]
    refine (and_iff_left hi).trans ?_
    cases a with
    | preview tenant upload | importCsv session tenant upload => exact agrees_iff
    | importJson session tenant items => exact Iff.rfl
    | commit session => exact absurd rfl (hcommit session)
    | rollback session => exact Iff.rfl

/-! ## Two overlapping imports of one file -/

/-- Lines and cells without quotes, in ASCII. -/
def plainLibrary : Library where
  lower := fun text => text.map Char.toLower
  reader := fun delimiter text =>
    (((text.splitOn '\n').rdropWhile (· = [])).map
      (fun line => if line = [] then [] else line.splitOn delimiter), false)
  indexable := fun _ => true

def oneKeyword : Upload where
  file := utf8 "phrase\na\n"
  phraseColumn := "phrase".toList
  columnMap := ⟨"group".toList, "frequency".toList, "intent".toList, "city".toList,
    "priority".toList⟩
  delimiter := [',']

def noKeywords : State := ⟨[], Table.empty⟩

theorem flushedDistinct_noKeywords : FlushedDistinct noKeywords := fun _ _ h => nomatch h

theorem import_agrees_iff_one :
    Distinct noKeywords.keywords ∧ FlushedDistinct noKeywords ∧
      (Along (step plainLibrary) (fun s a t => AgreesAt plainLibrary s a ∧ Distinct t.keywords)
          noKeywords [.preview (some 1) oneKeyword] ↔
        Along (step plainLibrary) (fun s a _ => Sound plainLibrary s a) noKeywords
          [.preview (some 1) oneKeyword]) :=
  ⟨List.nodup_nil, flushedDistinct_noKeywords,
    import_agrees_iff plainLibrary noKeywords List.nodup_nil flushedDistinct_noKeywords
      [.preview (some 1) oneKeyword]⟩

def keywordA : Keyword := ⟨1, ['a'], ['a'], some [], []⟩

theorem openCsv_of_header {lib : Library} {raw : List UInt8} {d : Char} {text : List Char}
    {header : CsvRow} {rest : List CsvRow} {failed : Bool} {phraseColumn : List Char}
    (hsize : ¬ raw.length > maxImportBytes) (hd : d ∈ [',', ';', '\t'])
    (htext : decodeUtf8Sig raw = some text) (hrows : lib.reader d text = (header :: rest, failed))
    (hheader : header ≠ []) (hcolumn : phraseColumn ∈ header) :
    openCsv lib raw [d] phraseColumn = .ok (header, records (header :: rest), failed) := by
  simp only [openCsv, if_neg hsize, if_neg (not_not.mpr hd), htext, hrows, List.head?_cons,
    Option.getD_some, hheader, false_or, if_neg (not_not.mpr hcolumn)]

theorem importKeywordsCsv_one :
    importKeywordsCsv plainLibrary [] (some 1) oneKeyword = .ok ⟨[keywordA], 1, 0, 0, []⟩ := by
  have hfile : decodeUtf8Sig (oneKeyword.file.take (maxImportBytes + 1)) =
      some "phrase\na\n".toList := by
    have hbytes : oneKeyword.file.take (maxImportBytes + 1) = utf8 "phrase\na\n" := by decide
    have hmark : [0xef, 0xbb, 0xbf].isPrefixOf (utf8 "phrase\na\n") = false := by decide
    rw [hbytes, decodeUtf8Sig, hmark, if_neg Bool.false_ne_true, decodeUtf8_eq_some.mpr rfl]
    rfl
  have hopen : opened plainLibrary oneKeyword = .ok (["phrase".toList], [["a".toList]], false) := by
    have hsize : ¬ (oneKeyword.file.take (maxImportBytes + 1)).length > maxImportBytes := by decide
    have hrows : plainLibrary.reader ',' "phrase\na\n".toList =
        (["phrase".toList] :: [["a".toList]], false) := by decide
    exact openCsv_of_header hsize (by decide) hfile hrows (by decide) (by decide)
  have hread := readUpload_eq plainLibrary oneKeyword
  rw [hopen] at hread
  rw [import_eq, hread]
  rfl

/-- Both imports find the tenant without the phrase, and both store it. -/
theorem overlapping_imports_duplicate :
    ¬ Along (step plainLibrary) (fun s a t => AgreesAt plainLibrary s a ∧ Distinct t.keywords)
        noKeywords [.importCsv 0 (some 1) oneKeyword, .importCsv 1 (some 1) oneKeyword,
          .commit 0, .commit 1] := by
  intro h
  have hfirst : step plainLibrary noKeywords (.importCsv 0 (some 1) oneKeyword) =
      some ⟨[], Table.empty.set 0 [keywordA]⟩ := by
    show noKeywords.hold 0 (importKeywordsCsv plainLibrary [] (some 1) oneKeyword) = _
    rw [importKeywordsCsv_one]
    rfl
  have hsecond : step plainLibrary ⟨[], Table.empty.set 0 [keywordA]⟩
      (.importCsv 1 (some 1) oneKeyword) =
      some ⟨[], (Table.empty.set 0 [keywordA]).set 1 [keywordA]⟩ := by
    show State.hold _ 1 (importKeywordsCsv plainLibrary [] (some 1) oneKeyword) = _
    rw [importKeywordsCsv_one]
    rfl
  have hrest := ((((h _ hfirst).2 _ hsecond).2 _ rfl).2 _ rfl).1.2
  have hdistinct : ([keywordA, keywordA].map (fun k => (k.tenantId, k.normalized))).Nodup := hrest
  exact absurd hdistinct (by decide)

end MegaPanel.Keywords

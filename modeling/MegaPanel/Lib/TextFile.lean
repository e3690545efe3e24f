import MegaPanel.Lib.Dict
import MegaPanel.Lib.Records

set_option autoImplicit false

/-! # Text files

Files in a directory, as a program writes them and reads them back. The directory is the list of
the writes into it, of which the last one to a path counts. `write_text` puts the characters down
as they are; `read_text` takes each of the line ends `\r\n`, `\r` and `\n` for a `\n`. So a text
comes back as it was written exactly when it has no `\r` (`newlines_eq_self_iff`).
-/

namespace MegaPanel.Lib

/-! ## Line ends -/

variable {text : String} {pattern : List Char}

/-- The decoder of line ends; the flag tells that the last character was a `\r`. -/
def newlinesFrom : Bool → List Char → List Char
  | _, [] => []
  | afterReturn, c :: cs =>
    if c = '\r' then '\n' :: newlinesFrom true cs
    else if c = '\n' ∧ afterReturn = true then newlinesFrom false cs
    else c :: newlinesFrom false cs

/-- The text with each line end as `\n`. -/
def newlines (text : String) : String := String.ofList (newlinesFrom false text.toList)

theorem return_notMem_newlinesFrom (afterReturn : Bool) (text : List Char) :
    '\r' ∉ newlinesFrom afterReturn text := by
  induction text generalizing afterReturn with
  | nil => exact List.not_mem_nil
  | cons c cs ih =>
    rw [newlinesFrom]
    split
    · exact List.not_mem_cons_of_ne_of_not_mem (by decide) (ih true)
    · next hne =>
      split
      · exact ih false
      · exact List.not_mem_cons_of_ne_of_not_mem (Ne.symm hne) (ih false)

theorem newlinesFrom_eq_self {text : List Char} (h : '\r' ∉ text) :
    newlinesFrom false text = text := by
  induction text with
  | nil => rfl
  | cons c cs ih =>
    rw [List.mem_cons, not_or] at h
    obtain ⟨hne, hcs⟩ := h
    rw [newlinesFrom, if_neg (Ne.symm hne), if_neg (fun hc => Bool.false_ne_true hc.2), ih hcs]

theorem newlines_eq_self_iff : newlines text = text ↔ '\r' ∉ text.toList := by
  constructor
  · intro h
    rw [← h, newlines, String.toList_ofList]
    exact return_notMem_newlinesFrom false _
  · intro h
    rw [newlines, newlinesFrom_eq_self h, String.ofList_toList]

/-- A text without line ends is at the start of the decoded text if it is at the start of the
text. -/
theorem length_newlinesFrom_le (afterReturn : Bool) (text : List Char) :
    (newlinesFrom afterReturn text).length ≤ text.length := by
  induction text generalizing afterReturn with
  | nil => exact le_rfl
  | cons c cs ih =>
    unfold newlinesFrom
    split
    · exact Nat.succ_le_succ (ih true)
    split
    · exact (ih false).trans (Nat.le_succ _)
    · exact Nat.succ_le_succ (ih false)

/-- Two characters that end a line together become one. -/
theorem length_newlinesFrom_lt (start rest : List Char) : ∀ afterReturn,
    (newlinesFrom afterReturn (start ++ '\r' :: '\n' :: rest)).length <
      (start ++ '\r' :: '\n' :: rest).length := by
  induction start with
  | nil =>
    intro afterReturn
    have hrest := length_newlinesFrom_le false rest
    have hpair : newlinesFrom afterReturn ('\r' :: '\n' :: rest) =
        '\n' :: newlinesFrom false rest := by
      rw [newlinesFrom, if_pos rfl, newlinesFrom, if_neg (by decide), if_pos ⟨rfl, rfl⟩]
    rw [List.nil_append, hpair, List.length_cons, List.length_cons, List.length_cons]
    omega
  | cons c cs ih =>
    intro afterReturn
    rw [List.cons_append, newlinesFrom]
    split
    · exact Nat.succ_lt_succ (ih true)
    split
    · exact (ih false).trans (Nat.lt_succ_self _)
    · exact Nat.succ_lt_succ (ih false)

theorem length_newlines_lt (h : "\r\n".toList <:+: text.toList) :
    (newlines text).length < text.length := by
  obtain ⟨start, rest, htext⟩ := h
  rw [List.append_assoc] at htext
  rw [newlines, ← String.length_toList, ← String.length_toList, String.toList_ofList, ← htext]
  exact length_newlinesFrom_lt start rest false

theorem prefix_newlinesFrom_iff (hreturn : '\r' ∉ pattern) (hfeed : '\n' ∉ pattern)
    {text : List Char} : pattern <+: newlinesFrom false text ↔ pattern <+: text := by
  induction text generalizing pattern with
  | nil => rfl
  | cons c cs ih =>
    cases pattern with
    | nil => exact ⟨fun _ => List.nil_prefix, fun _ => List.nil_prefix⟩
    | cons d ds =>
      rw [List.mem_cons, not_or] at hreturn hfeed
      rw [newlinesFrom, if_neg (fun h : c = '\n' ∧ false = true => Bool.false_ne_true h.2)]
      split
      · next hc =>
        rw [List.cons_prefix_cons, List.cons_prefix_cons, hc]
        exact ⟨fun h => absurd h.1.symm hfeed.1, fun h => absurd h.1.symm hreturn.1⟩
      · rw [List.cons_prefix_cons, List.cons_prefix_cons, ih hreturn.2 hfeed.2]

/-- The decoded text holds the same texts without line ends. -/
theorem infix_newlines_iff (hne : pattern ≠ []) (hreturn : '\r' ∉ pattern)
    (hfeed : '\n' ∉ pattern) : pattern <:+: (newlines text).toList ↔ pattern <:+: text.toList := by
  -- a character that the text lacks starts no match
  have hstart : ∀ (d : Char) (rest : List Char), d ∉ pattern → ¬ pattern <+: d :: rest := by
    rintro d rest hd ⟨tail, htail⟩
    cases pattern with
    | nil => exact hne rfl
    | cons e es =>
      rw [List.cons_append, List.cons.injEq] at htail
      exact hd (htail.1 ▸ List.mem_cons_self)
  have hscan : ∀ (cs : List Char) (afterReturn : Bool),
      pattern <:+: newlinesFrom afterReturn cs ↔ pattern <:+: cs := by
    intro cs
    induction cs with
    | nil => exact fun _ => Iff.rfl
    | cons c cs ih =>
      intro afterReturn
      rw [newlinesFrom]
      split
      · next hc =>
        rw [List.infix_cons_iff, List.infix_cons_iff, ih, or_iff_right (hstart _ _ hfeed),
          or_iff_right (hstart c cs (hc ▸ hreturn))]
      · next hc =>
        split
        · next hline =>
          rw [ih, List.infix_cons_iff, or_iff_right (hstart c cs (hline.1 ▸ hfeed))]
        · have hkept : newlinesFrom false (c :: cs) = c :: newlinesFrom false cs := by
            rw [newlinesFrom, if_neg hc, if_neg (fun h => Bool.false_ne_true h.2)]
          rw [List.infix_cons_iff, List.infix_cons_iff, ih, ← hkept,
            prefix_newlinesFrom_iff hreturn hfeed]
  rw [newlines, String.toList_ofList]
  exact hscan text.toList false

/-! ## Reading -/

/-- `data.decode("utf-8")` -/
def decodeUtf8 (data : List UInt8) : Option String := String.fromUTF8? ⟨data.toArray⟩

theorem decodeUtf8_eq_some {data : List UInt8} :
    decodeUtf8 data = some text ↔ utf8 text = data := by
  constructor
  · intro h
    unfold decodeUtf8 String.fromUTF8? at h
    split at h
    · cases h
      rfl
    · cases h
  · rintro rfl
    show String.fromUTF8? text.toUTF8 = some text
    rw [String.toUTF8_eq_toByteArray, String.fromUTF8?, dif_pos text.isValidUTF8]
    rfl

/-- `path.read_text(encoding="utf-8")`, on the bytes of the file. -/
def readText (data : List UInt8) : Option String := (decodeUtf8 data).map newlines

@[simp] theorem readText_utf8 (text : String) : readText (utf8 text) = some (newlines text) := by
  rw [readText, decodeUtf8_eq_some.mpr rfl, Option.map_some]

/-! ## Writes -/

variable {κ ν : Type*} [DecidableEq κ]

/-- The files there are after the writes, each path once. -/
def contents (writes : List (κ × ν)) : List (κ × ν) :=
  (writes.map Prod.fst).dedup.filterMap
    (fun path => (dictGet writes path).map (fun content => (path, content)))

theorem mem_contents {writes : List (κ × ν)} {file : κ × ν} :
    file ∈ contents writes ↔ dictGet writes file.1 = some file.2 := by
  rw [contents, List.mem_filterMap]
  constructor
  · rintro ⟨path, -, hfile⟩
    obtain ⟨content, hget, rfl⟩ := Option.map_eq_some_iff.mp hfile
    exact hget
  · intro h
    exact ⟨file.1, List.mem_dedup.mpr (List.mem_map_of_mem (dictGet_eq_some h)), by rw [h]; rfl⟩

theorem nodup_contents (writes : List (κ × ν)) : ((contents writes).map Prod.fst).Nodup := by
  have hpaths : (contents writes).map Prod.fst =
      (writes.map Prod.fst).dedup.filterMap
        (fun path => (dictGet writes path).map (fun _ => path)) := by
    rw [contents, List.map_filterMap]
    refine List.filterMap_congr (fun path _ => ?_)
    cases dictGet writes path <;> rfl
  rw [hpaths]
  refine List.Nodup.filterMap (fun a b c ha hb => ?_) (List.nodup_dedup _)
  obtain ⟨_, -, rfl⟩ := Option.map_eq_some_iff.mp ha
  obtain ⟨_, -, rfl⟩ := Option.map_eq_some_iff.mp hb
  rfl

theorem dictGet_contents (writes : List (κ × ν)) (path : κ) :
    dictGet (contents writes) path = dictGet writes path := by
  ext content
  rw [dictGet_eq_some_iff_mem (nodup_contents writes), mem_contents]

end MegaPanel.Lib

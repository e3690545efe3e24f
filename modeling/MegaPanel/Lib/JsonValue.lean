import MegaPanel.Lib.JsonText

set_option autoImplicit false

/-! # JSON values compared, merged and written compactly

What the columns of JSON values need: whether two values are equal, `{**a, **b}` on the entries
of two dictionaries, and `json.dumps(value, sort_keys=True, separators=(",", ":"))`, the text that
is hashed. -/

namespace MegaPanel.Lib.Json

/-! ## Equality -/

mutual

/-- Whether two values are the same, the entries of dictionaries in order. -/
def decEq : (v v' : Json) → Decidable (v = v')
  | .null, v' => match v' with
      | .null => .isTrue rfl
      | .bool _ | .int _ | .float _ | .str _ | .list _ | .dict _ => .isFalse nofun
  | .bool b, v' => match v' with
      | .bool b' => decidable_of_iff (b = b') (by simp)
      | .null | .int _ | .float _ | .str _ | .list _ | .dict _ => .isFalse nofun
  | .int n, v' => match v' with
      | .int n' => decidable_of_iff (n = n') (by simp)
      | .null | .bool _ | .float _ | .str _ | .list _ | .dict _ => .isFalse nofun
  | .float t, v' => match v' with
      | .float t' => decidable_of_iff (t = t') (by simp)
      | .null | .bool _ | .int _ | .str _ | .list _ | .dict _ => .isFalse nofun
  | .str s, v' => match v' with
      | .str s' => decidable_of_iff (s = s') (by simp)
      | .null | .bool _ | .int _ | .float _ | .list _ | .dict _ => .isFalse nofun
  | .list items, v' => match v' with
      | .list items' =>
        match decEqItems items items' with
        | .isTrue h => .isTrue (h ▸ rfl)
        | .isFalse h => .isFalse (fun heq => h (Json.list.inj heq))
      | .null | .bool _ | .int _ | .float _ | .str _ | .dict _ => .isFalse nofun
  | .dict entries, v' => match v' with
      | .dict entries' =>
        match decEqEntries entries entries' with
        | .isTrue h => .isTrue (h ▸ rfl)
        | .isFalse h => .isFalse (fun heq => h (Json.dict.inj heq))
      | .null | .bool _ | .int _ | .float _ | .str _ | .list _ => .isFalse nofun

def decEqItems : (items items' : List Json) → Decidable (items = items')
  | [], [] => .isTrue rfl
  | [], _ :: _ | _ :: _, [] => .isFalse nofun
  | v :: items, v' :: items' =>
    match decEq v v', decEqItems items items' with
    | .isTrue h, .isTrue h' => .isTrue (by rw [h, h'])
    | .isFalse h, _ => .isFalse (fun heq => h (List.cons.inj heq).1)
    | _, .isFalse h => .isFalse (fun heq => h (List.cons.inj heq).2)

def decEqEntries : (entries entries' : List (String × Json)) → Decidable (entries = entries')
  | [], [] => .isTrue rfl
  | [], _ :: _ | _ :: _, [] => .isFalse nofun
  | (key, v) :: entries, (key', v') :: entries' =>
    match decEq v v', decEqEntries entries entries' with
    | .isTrue h, .isTrue h' => decidable_of_iff (key = key') (by simp [h, h'])
    | .isFalse h, _ => .isFalse (fun heq => h (Prod.mk.inj (List.cons.inj heq).1).2)
    | _, .isFalse h => .isFalse (fun heq => h (List.cons.inj heq).2)

end

instance : DecidableEq Json := decEq

/-! ## Merging -/

/-- `entries[key] = v` -/
def setEntry (entries : List (String × Json)) (key : String) (v : Json) : List (String × Json) :=
  match entries with
  | [] => [(key, v)]
  | (key', v') :: rest =>
    if key' = key then (key, v) :: rest else (key', v') :: setEntry rest key v

/-- `{**entries, **others}` -/
def merge (entries others : List (String × Json)) : List (String × Json) :=
  others.foldl (fun entries e => setEntry entries e.1 e.2) entries

theorem get?_setEntry_ne {key key' : String} (h : key ≠ key') (v : Json)
    (entries : List (String × Json)) :
    get? (setEntry entries key v) key' = get? entries key' := by
  induction entries with
  | nil => simp [setEntry, get?, h]
  | cons e rest ih =>
    rw [setEntry]
    split
    · next hkey =>
      rw [get?_cons_ne h]
      exact (get?_cons_ne (hkey ▸ h) e.2 rest).symm
    · by_cases hkey : e.1 = key'
      · rw [← hkey, get?_cons_self, get?_cons_self]
      · rw [get?_cons_ne hkey, get?_cons_ne hkey, ih]

/-- What the second dictionary does not have is that of the first one. -/
theorem get?_merge_of_none {others : List (String × Json)} {key : String}
    (h : get? others key = none) (entries : List (String × Json)) :
    get? (merge entries others) key = get? entries key := by
  induction others generalizing entries with
  | nil => rfl
  | cons e rest ih =>
    by_cases hkey : e.1 = key
    · rw [← hkey, get?_cons_self] at h
      cases h
    · rw [get?_cons_ne hkey] at h
      rw [merge, List.foldl_cons]
      exact (ih h _).trans (get?_setEntry_ne hkey _ _)

theorem get?_setEntry_self (entries : List (String × Json)) (key : String) (v : Json) :
    get? (setEntry entries key v) key = some v := by
  induction entries with
  | nil => exact get?_cons_self key v []
  | cons e rest ih =>
    rw [setEntry]
    split
    · exact get?_cons_self key v rest
    · next hkey => rw [get?_cons_ne hkey, ih]

/-- The second dictionary comes before the first one. -/
theorem get?_merge {others : List (String × Json)} (hkeys : (others.map (·.1)).Nodup)
    (entries : List (String × Json)) (key : String) :
    get? (merge entries others) key = (get? others key).or (get? entries key) := by
  induction others generalizing entries with
  | nil => rfl
  | cons e rest ih =>
    rw [List.map_cons, List.nodup_cons] at hkeys
    have hmerge : merge entries (e :: rest) = merge (setEntry entries e.1 e.2) rest := rfl
    rw [hmerge, ih hkeys.2]
    by_cases hkey : e.1 = key
    · have hrest : get? rest key = none := by
        rw [get?, Option.map_eq_none_iff, List.find?_eq_none]
        intro x hx heq
        have hxkey : x.1 = e.1 := (of_decide_eq_true heq).trans hkey.symm
        exact hkeys.1 (hxkey ▸ List.mem_map_of_mem hx)
      rw [hrest, ← hkey, get?_cons_self, get?_setEntry_self]
      rfl
    · rw [get?_cons_ne hkey, get?_setEntry_ne hkey]

/-! ## The compact text -/

mutual

def compactOf : Json → List Char
  | .list [] => ['[', ']']
  | .list (v :: items) => '[' :: (compactOf v ++ compactItems items)
  | .dict [] => ['{', '}']
  | .dict ((key, v) :: entries) =>
    '{' :: '"' :: (stringText key.toList ++ ':' :: (compactOf v ++ compactEntries entries))
  | v => textOf v

/-- The items after the first one. -/
def compactItems : List Json → List Char
  | [] => [']']
  | v :: items => ',' :: (compactOf v ++ compactItems items)

/-- The entries after the first one. -/
def compactEntries : List (String × Json) → List Char
  | [] => ['}']
  | (key, v) :: entries =>
    ',' :: '"' :: (stringText key.toList ++ ':' :: (compactOf v ++ compactEntries entries))

end

/-- `json.dumps(value, sort_keys=True, separators=(",", ":"), ensure_ascii=False)` -/
def dumpsCompact (v : Json) : String := String.ofList (compactOf (sortKeys v))

example : dumpsCompact (.dict [("b", .list [.int (-12), .null]), ("a", .str "x")])
    = "\x7b\"a\":\"x\",\"b\":[-12,null]\x7d" := by decide +kernel

end MegaPanel.Lib.Json

import MegaPanel.Lib.Chars

set_option autoImplicit false

/-! # JSON values

What `json.loads` returns: a dictionary is the list of its entries in order. Numbers that
are not integers only keep their text. -/

namespace MegaPanel.Lib

inductive Json
  | null
  | bool (b : Bool)
  | int (n : Int)
  | float (text : String)
  | str (s : String)
  | list (items : List Json)
  | dict (entries : List (String × Json))

namespace Json

/-- `entries.get(key)`, on the entries of a dictionary. -/
def get? (entries : List (String × Json)) (key : String) : Option Json :=
  (entries.find? (fun e => e.1 = key)).map (·.2)

/-- `set(entries) == set(keys)` -/
def hasKeys (entries : List (String × Json)) (keys : List String) : Bool :=
  entries.all (fun e => e.1 ∈ keys) && keys.all (fun k => (get? entries k).isSome)

@[simp] theorem get?_cons_self (key : String) (v : Json) (entries : List (String × Json)) :
    get? ((key, v) :: entries) key = some v := by
  simp [get?]

theorem get?_cons_ne {key key' : String} (h : key ≠ key') (v : Json)
    (entries : List (String × Json)) : get? ((key, v) :: entries) key' = get? entries key' := by
  simp [get?, h]

/-- The value is this string. -/
def isStr (v : Option Json) (s : String) : Bool :=
  match v with
  | some (.str t) => t = s
  | _ => false

@[simp] theorem isStr_some_str (t s : String) : isStr (some (.str t)) s = decide (t = s) := rfl

@[simp] theorem isStr_none (s : String) : isStr none s = false := rfl

end Json

end MegaPanel.Lib

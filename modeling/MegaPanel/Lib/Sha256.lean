import Mathlib.Tactic

set_option autoImplicit false

/-! # SHA-256

The hash function of FIPS 180-4 on byte lists, as `hashlib.sha256` computes it, with the
lower-case hexadecimal digest of `hexdigest()`. A digest is eight words, so
`hexdigest_length` and `hexdigest_isHex` hold by construction: every digest passes the
check `[a-f0-9]{64}` (`IsSha256`). Nothing here says that the function is hard to invert
or free of collisions. A development that needs that assumes it.
-/

namespace MegaPanel.Lib.Sha256

/-! ## The compression function -/

/-- The round constants. -/
def roundConstants : List UInt32 :=
  [0x428a2f98, 0x71374491, 0xb5c0fbcf, 0xe9b5dba5, 0x3956c25b, 0x59f111f1, 0x923f82a4, 0xab1c5ed5,
   0xd807aa98, 0x12835b01, 0x243185be, 0x550c7dc3, 0x72be5d74, 0x80deb1fe, 0x9bdc06a7, 0xc19bf174,
   0xe49b69c1, 0xefbe4786, 0x0fc19dc6, 0x240ca1cc, 0x2de92c6f, 0x4a7484aa, 0x5cb0a9dc, 0x76f988da,
   0x983e5152, 0xa831c66d, 0xb00327c8, 0xbf597fc7, 0xc6e00bf3, 0xd5a79147, 0x06ca6351, 0x14292967,
   0x27b70a85, 0x2e1b2138, 0x4d2c6dfc, 0x53380d13, 0x650a7354, 0x766a0abb, 0x81c2c92e, 0x92722c85,
   0xa2bfe8a1, 0xa81a664b, 0xc24b8b70, 0xc76c51a3, 0xd192e819, 0xd6990624, 0xf40e3585, 0x106aa070,
   0x19a4c116, 0x1e376c08, 0x2748774c, 0x34b0bcb5, 0x391c0cb3, 0x4ed8aa4a, 0x5b9cca4f, 0x682e6ff3,
   0x748f82ee, 0x78a5636f, 0x84c87814, 0x8cc70208, 0x90befffa, 0xa4506ceb, 0xbef9a3f7, 0xc67178f2]

/-- The eight working words. -/
structure Words where
  a : UInt32
  b : UInt32
  c : UInt32
  d : UInt32
  e : UInt32
  f : UInt32
  g : UInt32
  h : UInt32

def initial : Words :=
  ⟨0x6a09e667, 0xbb67ae85, 0x3c6ef372, 0xa54ff53a, 0x510e527f, 0x9b05688c, 0x1f83d9ab, 0x5be0cd19⟩

def rotr (x n : UInt32) : UInt32 := (x >>> n) ||| (x <<< (32 - n))

/-- One round with round constant `k` and schedule word `w`. -/
def round (s : Words) (k w : UInt32) : Words :=
  let t1 := s.h + (rotr s.e 6 ^^^ rotr s.e 11 ^^^ rotr s.e 25)
    + ((s.e &&& s.f) ^^^ ((0xffffffff ^^^ s.e) &&& s.g)) + k + w
  let t2 := (rotr s.a 2 ^^^ rotr s.a 13 ^^^ rotr s.a 22)
    + ((s.a &&& s.b) ^^^ (s.a &&& s.c) ^^^ (s.b &&& s.c))
  ⟨t1 + t2, s.a, s.b, s.c, s.d + t1, s.e, s.f, s.g⟩

/-- The next word of the message schedule, from the sixteen words before it. -/
def nextWord (win : List UInt32) : UInt32 :=
  let w0 := win.getD 0 0
  let w1 := win.getD 1 0
  let w9 := win.getD 9 0
  let w14 := win.getD 14 0
  w0 + (rotr w1 7 ^^^ rotr w1 18 ^^^ (w1 >>> 3)) + w9
    + (rotr w14 17 ^^^ rotr w14 19 ^^^ (w14 >>> 10))

/-- Run one round per constant; `win` is the window of sixteen schedule words. -/
def rounds : List UInt32 → Words → List UInt32 → Words
  | [], s, _ => s
  | k :: ks, s, win => rounds ks (round s k (win.getD 0 0)) (win.tail ++ [nextWord win])

def compress (s : Words) (block : List UInt32) : Words :=
  let t := rounds roundConstants s block
  ⟨s.a + t.a, s.b + t.b, s.c + t.c, s.d + t.d, s.e + t.e, s.f + t.f, s.g + t.g, s.h + t.h⟩

/-! ## Padding and the digest -/

/-- The eight bytes of the message length in bits. -/
def lengthBytes (n : Nat) : List UInt8 :=
  [56, 48, 40, 32, 24, 16, 8, 0].map (fun s => UInt8.ofNat ((8 * n) >>> s))

def pad (msg : List UInt8) : List UInt8 :=
  msg ++ 0x80 :: List.replicate ((119 - msg.length % 64) % 64) 0 ++ lengthBytes msg.length

/-- The big-endian words of a byte list. -/
def toWords : List UInt8 → List UInt32
  | b0 :: b1 :: b2 :: b3 :: bs =>
    ((b0.toUInt32 <<< 24) ||| (b1.toUInt32 <<< 16) ||| (b2.toUInt32 <<< 8) ||| b3.toUInt32)
      :: toWords bs
  | _ => []

/-- The digest of a byte list, as eight words. -/
def digest (msg : List UInt8) : Words :=
  let ws := toWords (pad msg)
  (List.range (ws.length / 16)).foldl (fun s i => compress s ((ws.drop (16 * i)).take 16)) initial

/-! ## The hexadecimal digest -/

/-- The lower-case hexadecimal digit of a number below sixteen. -/
def hexDigit (n : Nat) : Char := if n < 10 then Char.ofNat (48 + n) else Char.ofNat (87 + n)

/-- `[a-f0-9]` -/
def isHexChar (c : Char) : Bool := ('0' ≤ c && c ≤ '9') || ('a' ≤ c && c ≤ 'f')

def wordHex (w : UInt32) : List Char :=
  [28, 24, 20, 16, 12, 8, 4, 0].map (fun s => hexDigit ((w.toNat >>> s) % 16))

def hexChars (msg : List UInt8) : List Char :=
  let t := digest msg
  [t.a, t.b, t.c, t.d, t.e, t.f, t.g, t.h].flatMap wordHex

/-- `hashlib.sha256(data).hexdigest()` -/
def hexdigest (msg : List UInt8) : String := String.ofList (hexChars msg)

/-- The test `[a-f0-9]{64}` on a whole string. -/
def isSha256 (s : String) : Bool := s.toList.length == 64 && s.toList.all isHexChar

theorem isHexChar_hexDigit : ∀ n < 16, isHexChar (hexDigit n) = true := by decide

theorem hexChars_length (msg : List UInt8) : (hexChars msg).length = 64 := by
  simp [hexChars, wordHex, List.flatMap_cons]

theorem hexChars_isHex (msg : List UInt8) : ∀ c ∈ hexChars msg, isHexChar c = true := by
  intro c hc
  obtain ⟨w, _, hw⟩ := List.mem_flatMap.mp hc
  obtain ⟨s, _, rfl⟩ := List.mem_map.mp hw
  exact isHexChar_hexDigit _ (Nat.mod_lt _ (by decide))

/-- **Every hexadecimal digest has the digest format.** -/
theorem isSha256_hexdigest (msg : List UInt8) : isSha256 (hexdigest msg) = true := by
  rw [isSha256, hexdigest, String.toList_ofList, Bool.and_eq_true, List.all_eq_true]
  exact ⟨by rw [hexChars_length]; rfl, hexChars_isHex msg⟩

/-! ## Digests as bytes, and collisions -/

def wordBytes (w : UInt32) : List UInt8 :=
  [24, 16, 8, 0].map (fun s => UInt8.ofNat (w.toNat >>> s))

theorem wordBytes_length (w : UInt32) : (wordBytes w).length = 4 := rfl

theorem wordHex_length (w : UInt32) : (wordHex w).length = 8 := rfl

def Words.toList (t : Words) : List UInt32 := [t.a, t.b, t.c, t.d, t.e, t.f, t.g, t.h]

theorem Words.length_toList (t : Words) : t.toList.length = 8 := rfl

/-- `hashlib.sha256(data).digest()` -/
def digestBytes (msg : List UInt8) : List UInt8 := (digest msg).toList.flatMap wordBytes

theorem hexDigit_injOn : ∀ m < 16, ∀ n < 16, hexDigit m = hexDigit n → m = n := by decide

theorem wordBytes_injective : Function.Injective wordBytes := by
  intro v w h
  have hv := v.toNat_lt
  have hw := w.toNat_lt
  have hbyte : ∀ m n : Nat, UInt8.ofNat m = UInt8.ofNat n → m % 256 = n % 256 := by
    intro m n hmn
    have hnat := congrArg UInt8.toNat hmn
    simpa using hnat
  simp only [wordBytes, List.map_cons, List.map_nil, List.cons.injEq, and_true,
    Nat.shiftRight_eq_div_pow] at h
  have h24 := hbyte _ _ h.1
  have h16 := hbyte _ _ h.2.1
  have h8 := hbyte _ _ h.2.2.1
  have h0 := hbyte _ _ h.2.2.2
  apply UInt32.toNat_inj.mp
  omega

theorem wordHex_injective : Function.Injective wordHex := by
  intro v w h
  have hv := v.toNat_lt
  have hw := w.toNat_lt
  have hdigit : ∀ m n : Nat, hexDigit (m % 16) = hexDigit (n % 16) → m % 16 = n % 16 :=
    fun m n => hexDigit_injOn _ (Nat.mod_lt _ (by decide)) _ (Nat.mod_lt _ (by decide))
  simp only [wordHex, List.map_cons, List.map_nil, List.cons.injEq, and_true,
    Nat.shiftRight_eq_div_pow] at h
  obtain ⟨h28, h24, h20, h16, h12, h8, h4, h0⟩ := h
  have := hdigit _ _ h28
  have := hdigit _ _ h24
  have := hdigit _ _ h20
  have := hdigit _ _ h16
  have := hdigit _ _ h12
  have := hdigit _ _ h8
  have := hdigit _ _ h4
  have := hdigit _ _ h0
  apply UInt32.toNat_inj.mp
  omega

/-- Texts of one length, put one after the other, can be told apart. -/
theorem flatMap_inj {α β : Type*} {f : α → List β} {n : Nat} (hf : Function.Injective f)
    (hlen : ∀ a, (f a).length = n) {xs ys : List α} (hsame : xs.length = ys.length)
    (h : xs.flatMap f = ys.flatMap f) : xs = ys := by
  induction xs generalizing ys with
  | nil => exact (List.length_eq_zero_iff.mp hsame.symm).symm
  | cons x xs ih =>
    cases ys with
    | nil => cases hsame
    | cons y ys =>
      rw [List.flatMap_cons, List.flatMap_cons] at h
      obtain ⟨hhead, htail⟩ := List.append_inj h ((hlen x).trans (hlen y).symm)
      rw [hf hhead, ih (Nat.succ.inj hsame) htail]

theorem Words.toList_injective : Function.Injective Words.toList := by
  rintro ⟨⟩ ⟨⟩ h
  simp only [Words.toList, List.cons.injEq, and_true] at h
  simp only [Words.mk.injEq]
  exact h

theorem hexChars_eq (msg : List UInt8) : hexChars msg = (digest msg).toList.flatMap wordHex := by
  rw [hexChars, Words.toList]

/-- Both forms of a digest tell what the digest tells. -/
theorem digestBytes_inj {x y : List UInt8} :
    digestBytes x = digestBytes y ↔ digest x = digest y := by
  constructor
  · intro h
    have hsame : (digest x).toList.length = (digest y).toList.length := by
      rw [Words.length_toList, Words.length_toList]
    exact Words.toList_injective (flatMap_inj wordBytes_injective wordBytes_length hsame h)
  · intro h
    rw [digestBytes, h, digestBytes]

theorem hexdigest_inj {x y : List UInt8} : hexdigest x = hexdigest y ↔ digest x = digest y := by
  constructor
  · intro h
    have hchars : hexChars x = hexChars y := String.ofList_injective h
    have hsame : (digest x).toList.length = (digest y).toList.length := by
      rw [Words.length_toList, Words.length_toList]
    rw [hexChars_eq, hexChars_eq] at hchars
    exact Words.toList_injective (flatMap_inj wordHex_injective wordHex_length hsame hchars)
  · intro h
    rw [hexdigest, hexdigest, hexChars, h, hexChars]

/-- No two of these messages have the same digest. -/
def CollisionFree (messages : Set (List UInt8)) : Prop := Set.InjOn digest messages

/-- Whether a finite list of messages is free of collisions can be computed. -/
theorem collisionFree_of_nodup {messages : List (List UInt8)}
    (h : (messages.map hexdigest).Nodup) : CollisionFree {m | m ∈ messages} :=
  fun _ hx _ hy hxy => List.inj_on_of_nodup_map h hx hy (hexdigest_inj.mpr hxy)

/-- The digest of the UTF-8 encoding of a text. -/
def sha256Hex (text : String) : String := hexdigest text.toUTF8.data.toList

theorem isSha256_sha256Hex (text : String) : isSha256 (sha256Hex text) = true :=
  isSha256_hexdigest _

set_option maxRecDepth 20000 in
example : sha256Hex "abc" = "ba7816bf8f01cfea414140de5dae2223b00361a396177a9cb410ff61f20015ad" := by
  decide +kernel

end MegaPanel.Lib.Sha256

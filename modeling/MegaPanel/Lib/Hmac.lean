import MegaPanel.Lib.Sha256

set_option autoImplicit false

/-! # HMAC-SHA256

The keyed digest of RFC 2104 on byte lists, as `hmac.new(key, msg, hashlib.sha256)` computes it. Two
digests under one key are equal for one message, and for two messages only by a collision of the
hash function (`hmacHex_inj`).
-/

namespace MegaPanel.Lib.Hmac

open Sha256

/-- The key as one block. -/
def blockKey (key : List UInt8) : List UInt8 :=
  let key := if 64 < key.length then digestBytes key else key
  key ++ List.replicate (64 - key.length) 0

/-- The message of the inner hash. -/
def inner (key msg : List UInt8) : List UInt8 := (blockKey key).map (· ^^^ 0x36) ++ msg

/-- The message of the outer hash. -/
def outer (key msg : List UInt8) : List UInt8 :=
  (blockKey key).map (· ^^^ 0x5c) ++ digestBytes (inner key msg)

/-- `hmac.new(key, msg, hashlib.sha256).hexdigest()` -/
def hmacHex (key msg : List UInt8) : String := hexdigest (outer key msg)

/-- What is hashed for some messages. -/
def hashed (key : List UInt8) (msgs : List (List UInt8)) : List (List UInt8) :=
  msgs.flatMap (fun msg => [inner key msg, outer key msg])

theorem mem_hashed {key msg : List UInt8} {msgs : List (List UInt8)} (h : msg ∈ msgs) :
    inner key msg ∈ hashed key msgs ∧ outer key msg ∈ hashed key msgs :=
  ⟨List.mem_flatMap.mpr ⟨msg, h, by simp⟩, List.mem_flatMap.mpr ⟨msg, h, by simp⟩⟩

/-- **Without a collision, a keyed digest tells its message.** -/
theorem hmacHex_inj {key msg msg' : List UInt8}
    (hfree : CollisionFree {m | m ∈ hashed key [msg, msg']}) :
    hmacHex key msg = hmacHex key msg' ↔ msg = msg' := by
  have hmem : ∀ m ∈ [msg, msg'],
      inner key m ∈ hashed key [msg, msg'] ∧ outer key m ∈ hashed key [msg, msg'] :=
    fun m hm => mem_hashed hm
  obtain ⟨hinner, houter⟩ := hmem msg (by simp)
  obtain ⟨hinner', houter'⟩ := hmem msg' (by simp)
  refine ⟨fun h => ?_, fun h => by rw [h]⟩
  have hsame := hfree houter houter' (hexdigest_inj.mp h)
  have hdigests := digestBytes_inj.mp (List.append_cancel_left hsame)
  exact List.append_cancel_left (hfree hinner hinner' hdigests)

end MegaPanel.Lib.Hmac

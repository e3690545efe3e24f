import MegaPanel.Basic
import MegaPanel.Lib.Dict
import MegaPanel.Lib.Run

set_option autoImplicit false

/-! # Revoked access tokens

`services/token_blacklist.py` of one process. A revocation goes to Redis, or to a set in memory
when Redis is not reachable; a lookup asks one of the two. `_get_redis` keeps the client before the
first `ping` has shown that it works, so the memory is used by the first call of the process and by
no later one: what the first call puts there is never found again.

A call takes from the environment whether Redis is reachable at its `ping` and at its command. Keys
stay in Redis until their `ttl` is over. `tokens_stay_revoked_iff` says exactly which revocations
are found for as long as they are to be.
-/

namespace MegaPanel.TokenBlacklist

open MegaPanel.Lib

/-! ## The process and its Redis -/

/-- Whether `_redis` is set, `_memory_blacklist`, and the keys of Redis with the ends of their
time. -/
structure World where
  redis : Bool
  memory : List String
  store : List (String × Time)
  now : Time

/-- The world when the process starts. -/
def start (store : List (String × Time)) (now : Time) : World := ⟨false, [], store, now⟩

inductive Raised
  | connectionError
  | responseError
  deriving DecidableEq

def blacklistKey (jti : String) : String := "jwt:bl:" ++ jti

/-- `client.setex(key, ttl, "1")` -/
def setex (w : World) (reachable : Bool) (key : String) (ttl : Int) : World × Except Raised Unit :=
  if !reachable then (w, .error .connectionError)
  else if ttl ≤ 0 then (w, .error .responseError)
  else ({ w with store := w.store ++ [(key, w.now + seconds ttl.toNat)] }, .ok ())

/-- The key is in Redis and its time is not over. -/
def holds (w : World) (key : String) : Bool :=
  (dictGet w.store key).any (fun expiry => w.now < expiry)

/-- `client.exists(key)` -/
def existsKey (w : World) (reachable : Bool) (key : String) : Except Raised Bool :=
  if !reachable then .error .connectionError else .ok (holds w key)

/-- `_get_redis`: whether a client comes back. A new client is stored before its `ping`. -/
def getRedis (w : World) (ping : Bool) : World × Bool :=
  if w.redis then (w, true) else ({ w with redis := true }, ping)

/-- `blacklist_jti` -/
def blacklistJti (w : World) (jti : String) (ttl : Int) (ping command : Bool) :
    World × Except Raised Unit :=
  match getRedis w ping with
  | (w, true) => setex w command (blacklistKey jti) ttl
  | (w, false) => ({ w with memory := jti :: w.memory }, .ok ())

/-- `is_blacklisted` -/
def isBlacklisted (w : World) (jti : String) (ping command : Bool) :
    World × Except Raised Bool :=
  match getRedis w ping with
  | (w, true) => (w, existsKey w command (blacklistKey jti))
  | (w, false) => (w, .ok (jti ∈ w.memory))

/-! ## Runs -/

inductive Action
  | wait (duration : Nat)
  | blacklist (jti : String) (ttl : Int) (ping command : Bool)
  | lookup (jti : String) (ping command : Bool)

def next (w : World) : Action → World
  | .wait duration => { w with now := w.now + duration }
  | .blacklist jti ttl ping command => (blacklistJti w jti ttl ping command).1
  | .lookup jti ping command => (isBlacklisted w jti ping command).1

def step (w : World) (a : Action) : Option World := some (next w a)

/-- A revocation, with the time up to which it is to hold. -/
structure Revocation where
  jti : String
  expiry : Time
  deriving DecidableEq

/-- The history variable: the revocations that have returned normally. -/
def note (w : World) (a : Action) (revoked : List Revocation) : List Revocation :=
  match a with
  | .blacklist jti ttl ping command =>
    match (blacklistJti w jti ttl ping command).2 with
    | .ok _ => ⟨jti, w.now + seconds ttl.toNat⟩ :: revoked
    | .error _ => revoked
  | _ => revoked

/-- No lookup of a revoked token, made now or later within its time, returns `False`. -/
def StayRevoked (w : World) (revoked : List Revocation) : Prop :=
  ∀ r ∈ revoked, ∀ t, w.now ≤ t → t < r.expiry → ∀ ping command,
    (isBlacklisted { w with now := t } r.jti ping command).2 ≠ .ok false

/-- Redis has the token until `time`. -/
def coveredUntil (w : World) (jti : String) (time : Time) : Bool :=
  (dictGet w.store (blacklistKey jti)).any (fun expiry => time ≤ expiry)

/-- The condition on a revocation: it goes to Redis and does not cut the time of an earlier one of
the same token short; if it is the first call of the process and Redis is not there, Redis has the
token for that time already. -/
def kept (w : World) (revoked : List Revocation) (a : Action) : Bool :=
  match a with
  | .blacklist jti ttl ping command =>
    if w.redis || ping then
      !command || ttl ≤ 0 || revoked.all (fun r =>
        r.jti ≠ jti || r.expiry ≤ w.now || r.expiry ≤ w.now + seconds ttl.toNat)
    else ttl ≤ 0 || coveredUntil w jti (w.now + seconds ttl.toNat)
  | _ => true

/-! ## What a lookup finds -/

variable {w : World} {jti : String} {revoked : List Revocation}

/-- Every revocation in force is in Redis for its time. -/
def Covered (w : World) (revoked : List Revocation) : Prop :=
  ∀ r ∈ revoked, w.now < r.expiry → coveredUntil w r.jti r.expiry = true

/-- Before the first call nothing is revoked. -/
def Fresh (w : World) (revoked : List Revocation) : Prop := w.redis = false → revoked = []

theorem holds_iff {key : String} :
    holds w key = true ↔ ∃ expiry, dictGet w.store key = some expiry ∧ w.now < expiry := by
  simp only [holds, Option.any_eq_true, decide_eq_true_eq]

theorem coveredUntil_iff {time : Time} :
    coveredUntil w jti time = true ↔
      ∃ expiry, dictGet w.store (blacklistKey jti) = some expiry ∧ time ≤ expiry := by
  simp only [coveredUntil, Option.any_eq_true, decide_eq_true_eq]

/-- With a client, a lookup that reaches Redis tells whether the key is there. -/
theorem isBlacklisted_ne_false {w : World} (h : w.redis = true) (jti : String) :
    (∀ ping command, (isBlacklisted w jti ping command).2 ≠ .ok false) ↔
      holds w (blacklistKey jti) = true := by
  have hlookup : ∀ ping command,
      (isBlacklisted w jti ping command).2 = existsKey w command (blacklistKey jti) := by
    intro ping command
    rw [isBlacklisted, getRedis, if_pos h]
  constructor
  · intro hall
    have hreached := hall true true
    rw [hlookup] at hreached
    by_contra hno
    rw [Bool.not_eq_true] at hno
    exact hreached (congrArg Except.ok hno)
  · intro hholds ping command
    rw [hlookup, existsKey, hholds]
    cases command <;> exact nofun

theorem stayRevoked_iff (hfresh : Fresh w revoked) : StayRevoked w revoked ↔ Covered w revoked := by
  cases hredis : w.redis with
  | false =>
    rw [hfresh hredis]
    exact ⟨fun _ r hr => absurd hr List.not_mem_nil, fun _ r hr => absurd hr List.not_mem_nil⟩
  | true =>
    constructor
    · intro h r hr hnow
      -- the last instant of the time tells how long the key is there
      have hlast : holds { w with now := r.expiry - 1 } (blacklistKey r.jti) = true :=
        (@isBlacklisted_ne_false { w with now := r.expiry - 1 } hredis r.jti).mp
          (h r hr (r.expiry - 1) (Nat.le_sub_one_of_lt hnow)
            (Nat.sub_one_lt (Nat.ne_zero_of_lt hnow)))
      obtain ⟨expiry, hget, hlt⟩ := holds_iff.mp hlast
      exact coveredUntil_iff.mpr ⟨expiry, hget, Nat.le_of_pred_lt hlt⟩
    · intro h r hr t hnow ht
      obtain ⟨expiry, hget, hle⟩ := coveredUntil_iff.mp (h r hr (lt_of_le_of_lt hnow ht))
      have hholds : holds { w with now := t } (blacklistKey r.jti) = true :=
        holds_iff.mpr ⟨expiry, hget, lt_of_lt_of_le ht hle⟩
      exact (@isBlacklisted_ne_false { w with now := t } hredis r.jti).mpr hholds

/-! ## One call -/

variable {ping : Bool}

theorem blacklistKey_injective {jti' : String} (h : blacklistKey jti = blacklistKey jti') :
    jti = jti' := by
  have hlist := congrArg String.toList h
  rw [blacklistKey, blacklistKey, String.toList_append, String.toList_append] at hlist
  exact String.toList_inj.mp (List.append_cancel_left hlist)

/-- A revocation with a client. -/
theorem blacklistJti_client (h : (w.redis || ping) = true) (jti : String) (ttl : Int)
    (command : Bool) : blacklistJti w jti ttl ping command =
      setex { w with redis := true } command (blacklistKey jti) ttl := by
  rw [blacklistJti, getRedis]
  cases hredis : w.redis with
  | true =>
    rw [if_pos rfl]
    show setex w command _ ttl = setex ⟨true, w.memory, w.store, w.now⟩ command _ ttl
    rw [← hredis]
  | false =>
    rw [hredis, Bool.false_or] at h
    rw [if_neg Bool.false_ne_true, h]

/-- A revocation without one. -/
theorem blacklistJti_memory (h : (w.redis || ping) = false) (jti : String) (ttl : Int)
    (command : Bool) : blacklistJti w jti ttl ping command =
      ({ w with redis := true, memory := jti :: w.memory }, .ok ()) := by
  obtain ⟨hredis, hping⟩ := Bool.or_eq_false_iff.mp h
  rw [blacklistJti, getRedis, hredis, if_neg Bool.false_ne_true, hping]

theorem fresh_next (hfresh : Fresh w revoked) (a : Action) :
    Fresh (next w a) (note w a revoked) := by
  intro hredis
  cases a with
  | wait duration => exact hfresh hredis
  | lookup jti ping command =>
    -- a lookup leaves a client
    cases hclient : w.redis with
    | true => simp [next, isBlacklisted, getRedis, hclient] at hredis
    | false => cases ping <;> simp [next, isBlacklisted, getRedis, hclient] at hredis
  | blacklist jti ttl ping command =>
    cases hclient : w.redis || ping with
    | true =>
      rw [next, blacklistJti_client hclient, setex] at hredis
      split at hredis
      · cases hredis
      · split at hredis <;> cases hredis
    | false =>
      rw [next, blacklistJti_memory hclient] at hredis
      cases hredis

/-- A key that is set covers its own token for the new time and no other one. -/
theorem covered_setex (hcovered : Covered w revoked) (jti : String) (ttl : Int) :
    Covered { w with redis := true, store := w.store ++
        [(blacklistKey jti, w.now + seconds ttl.toNat)] }
        (⟨jti, w.now + seconds ttl.toNat⟩ :: revoked) ↔
      ∀ r ∈ revoked, r.jti ≠ jti ∨ r.expiry ≤ w.now ∨ r.expiry ≤ w.now + seconds ttl.toNat := by
  have hself : dictGet (w.store ++ [(blacklistKey jti, w.now + seconds ttl.toNat)])
      (blacklistKey jti) = some (w.now + seconds ttl.toNat) := by
    rw [dictGet, List.reverse_append]
    simp
  have hother : ∀ jti', jti' ≠ jti →
      dictGet (w.store ++ [(blacklistKey jti, w.now + seconds ttl.toNat)]) (blacklistKey jti') =
        dictGet w.store (blacklistKey jti') := by
    intro jti' hne
    have hkey : blacklistKey jti ≠ blacklistKey jti' :=
      fun heq => hne (blacklistKey_injective heq).symm
    rw [dictGet, List.reverse_append]
    simp [hkey, dictGet]
  constructor
  · intro h r hr
    by_cases hjti : r.jti = jti
    · by_cases hnow : w.now < r.expiry
      · obtain ⟨expiry, hget, hle⟩ := coveredUntil_iff.mp (h r (List.mem_cons_of_mem _ hr) hnow)
        rw [hjti, hself, Option.some.injEq] at hget
        exact .inr (.inr (hget ▸ hle))
      · exact .inr (.inl (not_lt.mp hnow))
    · exact .inl hjti
  · intro h r hr hnow
    rcases List.mem_cons.mp hr with rfl | hr
    · exact coveredUntil_iff.mpr ⟨_, hself, le_rfl⟩
    obtain ⟨expiry, hget, hle⟩ := coveredUntil_iff.mp (hcovered r hr hnow)
    by_cases hjti : r.jti = jti
    · rcases h r hr with hne | hover | hlonger
      · exact absurd hjti hne
      · exact absurd hnow (not_lt.mpr hover)
      · exact coveredUntil_iff.mpr ⟨_, hjti ▸ hself, hlonger⟩
    · exact coveredUntil_iff.mpr ⟨expiry, (hother r.jti hjti).trans hget, hle⟩

/-- Time and lookups uncover nothing; a revocation uncovers nothing exactly when it is kept. -/
theorem covered_next (hfresh : Fresh w revoked) (hcovered : Covered w revoked) (a : Action) :
    Covered (next w a) (note w a revoked) ↔ kept w revoked a = true := by
  cases a with
  | wait duration =>
    refine ⟨fun _ => rfl, fun _ r hr hnow => hcovered r hr ?_⟩
    exact lt_of_le_of_lt (Nat.le_add_right w.now duration) hnow
  | lookup jti ping command =>
    refine ⟨fun _ => rfl, fun _ => ?_⟩
    have hnext : Covered (getRedis w ping).1 revoked := by
      rw [getRedis]
      split <;> exact hcovered
    rw [next, isBlacklisted]
    revert hnext
    rcases getRedis w ping with ⟨v, client⟩
    cases client <;> exact id
  | blacklist jti ttl ping command =>
    cases hclient : w.redis || ping with
    | true =>
      have hsame : Covered { w with redis := true } revoked := hcovered
      rw [next, note, blacklistJti_client hclient, kept, if_pos hclient, setex]
      cases command with
      | false => exact ⟨fun _ => rfl, fun _ => hsame⟩
      | true =>
        by_cases httl : ttl ≤ 0
        · simp [httl, hsame]
        · simp [httl, covered_setex hcovered jti ttl, or_assoc]
    | false =>
      obtain ⟨hredis, -⟩ := Bool.or_eq_false_iff.mp hclient
      rw [next, note, blacklistJti_memory hclient, kept, if_neg (by rw [hclient]; exact nofun),
        hfresh hredis, Bool.or_eq_true, decide_eq_true_eq]
      constructor
      · intro h
        by_cases httl : ttl ≤ 0
        · exact .inl httl
        have hnow : w.now < w.now + seconds ttl.toNat :=
          Nat.lt_add_of_pos_right (Nat.mul_pos (by omega) (by decide))
        exact .inr (h _ List.mem_cons_self hnow)
      · intro h r hr hnow
        cases List.mem_singleton.mp hr
        rcases h with httl | hstore
        · rw [Int.toNat_of_nonpos httl] at hnow
          simp [seconds] at hnow
        · exact hstore

/-! ## All runs -/

/-- **Revoked tokens are found exactly as long as the revocations are kept.** In every run of the
process, whatever Redis does, each state reached lets no lookup of a revoked token return `False`
within its time, exactly when every revocation of the run goes to Redis and cuts no earlier one of
its token short, or finds the token there. -/
theorem tokens_stay_revoked_iff (store : List (String × Time)) (now : Time) (as : List Action) :
    Along (withGhost step note) (fun _ _ x => StayRevoked x.1 x.2) (start store now, []) as ↔
      Along (withGhost step note) (fun x a _ => kept x.1 x.2 a = true) (start store now, []) as := by
  have hnext : ∀ x a y, withGhost step note x a = some y →
      y = (next x.1 a, note x.1 a x.2) := fun x a y h => (Option.some.inj h).symm
  have hfresh : ∀ x a y, Fresh x.1 x.2 → withGhost step note x a = some y → Fresh y.1 y.2 := by
    intro x a y hx hy
    rw [hnext x a y hy]
    exact fresh_next hx a
  have hstart : Fresh (start store now) [] := fun _ => rfl
  have hnone : Covered (start store now) [] := fun r hr => absurd hr List.not_mem_nil
  calc Along (withGhost step note) (fun _ _ x => StayRevoked x.1 x.2) (start store now, []) as
      ↔ Along (withGhost step note) (fun _ _ x => Covered x.1 x.2) (start store now, []) as :=
        along_iff hfresh (fun x a y hx hy => stayRevoked_iff (hfresh x a y hx hy)) hstart
    _ ↔ Along (withGhost step note) (fun x a _ => kept x.1 x.2 a = true)
          (start store now, []) as := by
        refine along_invariant_iff (I := fun x => Covered x.1 x.2) (s := (start store now, []))
          hfresh (fun x a y hx hcovered hy => ?_) hstart hnone
        rw [hnext x a y hy]
        exact covered_next hx hcovered a

/-- A token revoked by the first call of the process while Redis is away: a minute later, with
Redis back, it is not found. -/
theorem revoked_token_found_valid :
    (blacklistJti (start [] 0) "jti" 900 false false).2 = .ok () ∧
      ∃ w, exec step (start [] 0) [.blacklist "jti" 900 false false, .wait (seconds 60)] = some w ∧
        w.now < seconds 900 ∧ (isBlacklisted w "jti" true true).2 = .ok false :=
  ⟨rfl, _, rfl, by decide, rfl⟩

end MegaPanel.TokenBlacklist

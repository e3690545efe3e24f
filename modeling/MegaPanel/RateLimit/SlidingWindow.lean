import MegaPanel.Basic

set_option autoImplicit false

/-! # The sliding window limiter

`SlidingWindowLimiter.check` keeps the times of the checks it accepted, one queue for each key.
It first drops the times that have left the window from the front of the queue, then refuses the
check when the queue is full. Times are `time.monotonic()`, taken as exact numbers.

What the limiter is for is said by `run`, which has no queues: a check is admitted when fewer
than `max_hits` admitted checks of its key lie in the window that ends with it. `outcomes_eq_run`
shows that the queues compute this whenever the times do not decrease.
-/

namespace MegaPanel.RateLimit

/-! ## The limiter -/

/-- `SlidingWindowLimiter`; `hits` is `_hits`, a `defaultdict(deque)`. -/
structure SlidingWindowLimiter where
  maxHits : Nat
  window : ℚ
  hits : String → List ℚ

/-- `SlidingWindowLimiter(max_hits, window_seconds)` -/
def SlidingWindowLimiter.new (maxHits : Nat) (window : ℚ) : SlidingWindowLimiter :=
  ⟨maxHits, window, fun _ => []⟩

/-- A call of `check` at the time `time`. -/
structure Check where
  key : String
  time : ℚ
  deriving DecidableEq

/-- The loop that trims a queue. -/
def trim (window now : ℚ) : List ℚ → List ℚ
  | [] => []
  | t :: q => if window < now - t then trim window now q else t :: q

/-- `check`: the limiter afterwards, and the exception raised. -/
def SlidingWindowLimiter.check (l : SlidingWindowLimiter) (c : Check) :
    SlidingWindowLimiter × Option HttpError :=
  let q := trim l.window c.time (l.hits c.key)
  if l.maxHits ≤ q.length then
    ({ l with hits := Function.update l.hits c.key q }, some ⟨429, "Too many requests"⟩)
  else ({ l with hits := Function.update l.hits c.key (q ++ [c.time]) }, none)

/-- A check and whether it was accepted. -/
abbrev Entry := Check × Bool

/-- The checks of a run, each with its outcome. -/
def SlidingWindowLimiter.outcomes (l : SlidingWindowLimiter) : List Check → List Entry
  | [] => []
  | c :: cs => (c, (l.check c).2.isNone) :: (l.check c).1.outcomes cs

/-- The limiter after a run. -/
def SlidingWindowLimiter.after (l : SlidingWindowLimiter) (cs : List Check) :
    SlidingWindowLimiter :=
  cs.foldl (fun l c => (l.check c).1) l

/-- Whether a check is refused with `429`. -/
def SlidingWindowLimiter.rejects (l : SlidingWindowLimiter) (c : Check) : Bool :=
  (l.check c).2.isSome

theorem outcomes_append (l : SlidingWindowLimiter) (cs ds : List Check) :
    l.outcomes (cs ++ ds) = l.outcomes cs ++ (l.after cs).outcomes ds := by
  induction cs generalizing l with
  | nil => rfl
  | cons c cs ih =>
    rw [List.cons_append, SlidingWindowLimiter.outcomes, ih]
    rfl

/-! ## What it is for -/

/-- The times of the admitted checks of a key. -/
def times (key : String) (log : List Entry) : List ℚ :=
  (log.filter (fun e => e.2 && decide (e.1.key = key))).map (·.1.time)

/-- How many checks of a key were admitted from `a` to `b`. -/
def admitted (key : String) (a b : ℚ) (log : List Entry) : Nat :=
  (times key log).countP (fun t => decide (a ≤ t) && decide (t ≤ b))

/-- Fewer than `maxHits` admitted checks of the key lie in the window that ends now. -/
def admits (maxHits : Nat) (window : ℚ) (log : List Entry) (c : Check) : Bool :=
  decide (admitted c.key (c.time - window) c.time log < maxHits)

/-- The outcomes of a run after the checks of `log`. -/
def run (maxHits : Nat) (window : ℚ) (log : List Entry) : List Check → List Entry
  | [] => []
  | c :: cs =>
    (c, admits maxHits window log c) ::
      run maxHits window (log ++ [(c, admits maxHits window log c)]) cs

/-- The times of the checks do not decrease. -/
def InOrder (cs : List Check) : Prop := cs.Pairwise (fun c d => c.time ≤ d.time)

/-! ## The queues compute it -/

variable {now : ℚ} {l : SlidingWindowLimiter} {log : List Entry} {cs : List Check}

@[simp] theorem times_append (key : String) (log log' : List Entry) :
    times key (log ++ log') = times key log ++ times key log' := by
  simp [times]

theorem times_singleton (key : String) (c : Check) (b : Bool) :
    times key [(c, b)] = if b = true ∧ c.key = key then [c.time] else [] := by
  cases b <;> by_cases h : c.key = key <;> simp [times, h]

/-- What trimming takes from the front has left the window. -/
theorem trim_split (window now : ℚ) (q : List ℚ) :
    ∃ gone, q = gone ++ trim window now q ∧ ∀ t ∈ gone, window < now - t := by
  induction q with
  | nil => exact ⟨[], rfl, by simp⟩
  | cons t q ih =>
    by_cases hold : window < now - t
    · obtain ⟨gone, hq, hgone⟩ := ih
      refine ⟨t :: gone, ?_, ?_⟩
      · rw [trim, if_pos hold, List.cons_append, ← hq]
      · intro s hs
        rcases List.mem_cons.mp hs with rfl | hs
        · exact hold
        · exact hgone s hs
    · exact ⟨[], by rw [trim, if_neg hold, List.nil_append], by simp⟩

/-- Trimming a queue whose times do not decrease keeps those in the window. -/
theorem trim_eq_filter {window : ℚ} {q : List ℚ} (h : q.Pairwise (· ≤ ·)) :
    trim window now q = q.filter (fun t => decide (now - window ≤ t)) := by
  induction q with
  | nil => rfl
  | cons t q ih =>
    obtain ⟨hfirst, hq⟩ := List.pairwise_cons.mp h
    by_cases hold : window < now - t
    · have hout : ¬ now - window ≤ t := by linarith
      rw [trim, if_pos hold, ih hq, List.filter_cons_of_neg (by simpa using hout)]
    have hall : ∀ s ∈ t :: q, decide (now - window ≤ s) = true := by
      intro s hs
      have hts : t ≤ s := by
        rcases List.mem_cons.mp hs with rfl | hs
        · exact le_refl _
        · exact hfirst s hs
      simp only [decide_eq_true_eq]
      linarith
    rw [trim, if_neg hold, List.filter_eq_self.mpr hall]

/-- The queues of a limiter after the checks of `log`, the last one at the time `now`: what has
been dropped from the front has left the window. -/
structure Represents (l : SlidingWindowLimiter) (log : List Entry) (now : ℚ) : Prop where
  queue : ∀ key, ∃ dropped, times key log = dropped ++ l.hits key ∧
    ∀ t ∈ dropped, l.window < now - t
  sorted : ∀ key, (times key log).Pairwise (· ≤ ·)
  past : ∀ key, ∀ t ∈ times key log, t ≤ now

/-- The trimmed queue holds the admitted checks of the window. -/
theorem Represents.trim_eq (h : Represents l log now) {c : Check} (hc : now ≤ c.time) :
    trim l.window c.time (l.hits c.key) =
      (times c.key log).filter (fun t => decide (c.time - l.window ≤ t)) := by
  obtain ⟨dropped, htimes, hdropped⟩ := h.queue c.key
  have hsorted := h.sorted c.key
  rw [htimes] at hsorted ⊢
  rw [trim_eq_filter (List.pairwise_append.mp hsorted).2.1, List.filter_append]
  have hnone : dropped.filter (fun t => decide (c.time - l.window ≤ t)) = [] := by
    refine List.filter_eq_nil_iff.mpr (fun t ht => ?_)
    have hout := hdropped t ht
    simp only [decide_eq_true_eq, not_le]
    linarith
  rw [hnone, List.nil_append]

/-- A check is accepted when it is to be admitted. -/
theorem Represents.accepts (h : Represents l log now) {c : Check} (hc : now ≤ c.time) :
    (l.check c).2.isNone = admits l.maxHits l.window log c := by
  have hcount : (trim l.window c.time (l.hits c.key)).length =
      admitted c.key (c.time - l.window) c.time log := by
    rw [h.trim_eq hc, admitted, ← List.countP_eq_length_filter]
    refine List.countP_congr (fun t ht => ?_)
    have hpast : t ≤ c.time := le_trans (h.past c.key t ht) hc
    simp [hpast]
  simp only [SlidingWindowLimiter.check, hcount, admits]
  by_cases hfull : l.maxHits ≤ admitted c.key (c.time - l.window) c.time log
  · simp [hfull]
  · simp [hfull, not_le.mp hfull]

/-- The queues after a check. -/
theorem check_hits (l : SlidingWindowLimiter) (c : Check) (key : String) :
    (l.check c).1.hits key =
      if key = c.key then
        trim l.window c.time (l.hits c.key) ++ if (l.check c).2.isNone then [c.time] else []
      else l.hits key := by
  simp only [SlidingWindowLimiter.check]
  by_cases hfull : l.maxHits ≤ (trim l.window c.time (l.hits c.key)).length
  · simp [hfull, Function.update_apply]
  · simp [hfull, Function.update_apply]

theorem check_window (l : SlidingWindowLimiter) (c : Check) :
    (l.check c).1.window = l.window ∧ (l.check c).1.maxHits = l.maxHits := by
  simp only [SlidingWindowLimiter.check]
  split <;> exact ⟨rfl, rfl⟩

/-- **One check keeps the representation.** -/
theorem Represents.check (h : Represents l log now) {c : Check} (hc : now ≤ c.time) :
    Represents (l.check c).1 (log ++ [(c, (l.check c).2.isNone)]) c.time := by
  have hnew : ∀ key, times key (log ++ [(c, (l.check c).2.isNone)]) =
      times key log ++ if (l.check c).2.isNone = true ∧ c.key = key then [c.time] else [] := by
    intro key
    rw [times_append, times_singleton]
  have hmem : ∀ key, ∀ t ∈ times key (log ++ [(c, (l.check c).2.isNone)]),
      t ∈ times key log ∨ t = c.time := by
    intro key t ht
    rw [hnew, List.mem_append] at ht
    refine ht.imp id (fun ht => ?_)
    split at ht
    · exact List.mem_singleton.mp ht
    · cases ht
  have hpast : ∀ key, ∀ t ∈ times key log, t ≤ c.time := fun key t ht =>
    le_trans (h.past key t ht) hc
  refine ⟨fun key => ?_, fun key => ?_, fun key t ht => ?_⟩
  · obtain ⟨dropped, htimes, hdropped⟩ := h.queue key
    have hleft : ∀ t ∈ dropped, l.window < c.time - t := fun t ht => by
      have hout := hdropped t ht
      linarith
    rw [hnew, check_hits, (check_window l c).1]
    by_cases hkey : key = c.key
    · subst hkey
      obtain ⟨gone, hq, hgone⟩ := trim_split l.window c.time (l.hits c.key)
      refine ⟨dropped ++ gone, ?_, ?_⟩
      · rw [if_pos rfl, htimes, List.append_assoc dropped gone, ← List.append_assoc gone, ← hq]
        simp
      · intro t ht
        exact (List.mem_append.mp ht).elim (hleft t) (hgone t)
    · refine ⟨dropped, ?_, hleft⟩
      rw [if_neg hkey, if_neg (fun hc => hkey hc.2.symm), List.append_nil, htimes]
  · rw [hnew]
    refine List.pairwise_append.mpr ⟨h.sorted key, by split <;> simp, fun t ht s hs => ?_⟩
    split at hs
    · rw [List.mem_singleton.mp hs]
      exact hpast key t ht
    · cases hs
  · rcases hmem key t ht with ht | rfl
    · exact hpast key t ht
    · exact le_refl _

theorem Represents.outcomes_eq (h : Represents l log now) (hcs : InOrder cs)
    (hnow : ∀ c ∈ cs, now ≤ c.time) : l.outcomes cs = run l.maxHits l.window log cs := by
  induction cs generalizing l log now with
  | nil => rfl
  | cons c cs ih =>
    obtain ⟨hfirst, hrest⟩ := List.pairwise_cons.mp hcs
    have hc := hnow c (List.mem_cons_self ..)
    have hnext := ih (h.check hc) hrest hfirst
    rw [(check_window l c).1, (check_window l c).2] at hnext
    rw [SlidingWindowLimiter.outcomes, run, hnext, h.accepts hc]

/-- **Refinement.** With times that do not decrease, the queues compute `run`. -/
theorem outcomes_eq_run (maxHits : Nat) (window : ℚ) (h : InOrder cs) :
    (SlidingWindowLimiter.new maxHits window).outcomes cs = run maxHits window [] cs := by
  cases cs with
  | nil => rfl
  | cons c cs =>
    have hstart : Represents (.new maxHits window) [] c.time :=
      ⟨fun key => ⟨[], rfl, by simp⟩, fun _ => List.Pairwise.nil, fun _ t ht => by cases ht⟩
    refine hstart.outcomes_eq h (fun d hd => ?_)
    rcases List.mem_cons.mp hd with rfl | hd
    · exact le_refl _
    · exact (List.pairwise_cons.mp h).1 d hd

/-! ## The bound -/

variable {key : String}

theorem run_append (maxHits : Nat) (window : ℚ) (log : List Entry) (cs ds : List Check) :
    run maxHits window log (cs ++ ds) =
      run maxHits window log cs ++ run maxHits window (log ++ run maxHits window log cs) ds := by
  induction cs generalizing log with
  | nil => simp [run]
  | cons c cs ih => simp [run, ih]

theorem admitted_append (key : String) (a b : ℚ) (log log' : List Entry) :
    admitted key a b (log ++ log') = admitted key a b log + admitted key a b log' := by
  rw [admitted, times_append, List.countP_append]
  rfl

/-- The times of a run are among those of its checks. -/
theorem time_mem_of_run {maxHits : Nat} {window : ℚ} {t : ℚ} :
    ∀ {log : List Entry}, t ∈ times key (run maxHits window log cs) → ∃ c ∈ cs, c.time = t := by
  induction cs with
  | nil => intro log ht; cases ht
  | cons c cs ih =>
    intro log ht
    rw [run, ← List.singleton_append, times_append, List.mem_append] at ht
    rcases ht with ht | ht
    · rw [times_singleton] at ht
      split at ht
      · exact ⟨c, List.mem_cons_self .., (List.mem_singleton.mp ht).symm⟩
      · cases ht
    · obtain ⟨d, hd, hdt⟩ := ih ht
      exact ⟨d, List.mem_cons_of_mem _ hd, hdt⟩

/-- **At most `maxHits` in any interval no longer than the window.** The induction is on the last
check: if it is admitted, the interval that ends after it starts no earlier than its window. -/
theorem admitted_run_le {maxHits : Nat} {window : ℚ} (h : InOrder cs) (key : String) {a b : ℚ}
    (hab : b - a ≤ window) : admitted key a b (run maxHits window [] cs) ≤ maxHits := by
  induction cs using List.reverseRecOn with
  | nil => exact Nat.zero_le _
  | append_singleton cs c ih =>
    obtain ⟨hcs, _, hlast⟩ := List.pairwise_append.mp h
    have hold := ih hcs
    rw [run_append, admitted_append, List.nil_append]
    simp only [run]
    by_cases hin : admits maxHits window (run maxHits window [] cs) c = true ∧ c.key = key ∧
        a ≤ c.time ∧ c.time ≤ b
    · obtain ⟨hadmits, rfl, ha, hb⟩ := hin
      have hfree : admitted c.key (c.time - window) c.time (run maxHits window [] cs) < maxHits :=
        of_decide_eq_true hadmits
      have hwindow : admitted c.key a b (run maxHits window [] cs) ≤
          admitted c.key (c.time - window) c.time (run maxHits window [] cs) := by
        refine List.countP_mono_left (fun t ht hab' => ?_)
        obtain ⟨d, hd, rfl⟩ := time_mem_of_run ht
        have hdc := hlast d hd c (List.mem_singleton_self c)
        simp only [Bool.and_eq_true, decide_eq_true_eq] at hab' ⊢
        exact ⟨by linarith [hab'.1], hdc⟩
      have hone : admitted c.key a b
          [(c, admits maxHits window (run maxHits window [] cs) c)] = 1 := by
        rw [admitted, times_singleton, if_pos ⟨hadmits, rfl⟩]
        simp [ha, hb]
      omega
    · have hnone : admitted key a b
          [(c, admits maxHits window (run maxHits window [] cs) c)] = 0 := by
        rw [admitted, times_singleton]
        split
        · next hc =>
          refine List.countP_eq_zero.mpr (fun t ht => ?_)
          rw [List.mem_singleton.mp ht]
          simp only [Bool.and_eq_true, decide_eq_true_eq]
          exact fun hab' => hin ⟨hc.1, hc.2, hab'⟩
        · rfl
      omega

/-! ## What does not count -/

theorem admits_congr {maxHits : Nat} {window : ℚ} {log' : List Entry} {c : Check}
    (h : times c.key log = times c.key log') :
    admits maxHits window log c = admits maxHits window log' c := by
  rw [admits, admitted, h, ← admitted, ← admits]

/-- The later outcomes of a key depend on its admitted checks only. -/
theorem run_congr {maxHits : Nat} {window : ℚ} :
    ∀ {log log' : List Entry}, times key log = times key log' →
      (run maxHits window log cs).filter (fun e => decide (e.1.key = key)) =
        (run maxHits window log' cs).filter (fun e => decide (e.1.key = key)) := by
  induction cs with
  | nil => intro log log' _; rfl
  | cons c cs ih =>
    intro log log' h
    simp only [run]
    by_cases hkey : c.key = key
    · have hsame : admits maxHits window log c = admits maxHits window log' c :=
        admits_congr (by rw [hkey]; exact h)
      rw [hsame]
      have hrest := @ih (log ++ [(c, admits maxHits window log' c)])
        (log' ++ [(c, admits maxHits window log' c)])
        (by rw [times_append, times_append, h])
      simp [hkey, hrest]
    · have hrest := @ih (log ++ [(c, admits maxHits window log c)])
        (log' ++ [(c, admits maxHits window log' c)])
        (by simp only [times_append, times_singleton, hkey, and_false, if_false, h])
      simp [hkey, hrest]

/-- A check that was rejected or belongs to another key leaves no trace. -/
theorem run_without {maxHits : Nat} {window : ℚ} {before : List Check} {c : Check}
    (behind : List Check)
    (h : c.key ≠ key ∨ admits maxHits window (run maxHits window [] before) c = false) :
    (run maxHits window (run maxHits window [] (before ++ [c])) behind).filter
        (fun e => decide (e.1.key = key)) =
      (run maxHits window (run maxHits window [] before) behind).filter
        (fun e => decide (e.1.key = key)) := by
  refine run_congr ?_
  rw [run_append, times_append, List.nil_append]
  simp only [run]
  rw [times_singleton, if_neg, List.append_nil]
  rintro ⟨hadmits, hkey⟩
  rcases h with hne | hrejected
  · exact hne hkey
  · rw [hrejected] at hadmits
    cases hadmits

/-! ## The limiter as the code runs it -/

section Exact

variable {maxHits : Nat} {window : ℚ} {before behind : List Check} {c : Check}

/-- The later part of a run. -/
theorem outcomes_after (h : InOrder (before ++ behind)) :
    ((SlidingWindowLimiter.new maxHits window).after before).outcomes behind =
      run maxHits window (run maxHits window [] before) behind := by
  have hbefore : InOrder before := (List.pairwise_append.mp h).1
  have hall := outcomes_eq_run maxHits window h
  rw [outcomes_append, run_append, List.nil_append, outcomes_eq_run maxHits window hbefore] at hall
  exact List.append_cancel_left hall

/-- A check is refused when it is not to be admitted. -/
theorem rejects_eq (h : InOrder (before ++ c :: behind)) :
    ((SlidingWindowLimiter.new maxHits window).after before).rejects c =
      !admits maxHits window (run maxHits window [] before) c := by
  have hlater := @outcomes_after maxHits window _ _ h
  rw [SlidingWindowLimiter.outcomes, run, List.cons.injEq, Prod.mk.injEq] at hlater
  rw [← hlater.1.2, SlidingWindowLimiter.rejects, Option.not_isNone]

end Exact

/-- **The sliding window.** For checks whose times do not decrease: no interval as long as the
window or shorter holds more than `max_hits` accepted checks of one key; a check is refused only
when its window holds `max_hits` of them; and leaving out a refused check, or one of another
key, does not change what happens to a key later. -/
theorem slidingWindow_exact (maxHits : Nat) (window : ℚ) {cs : List Check} (h : InOrder cs) :
    (∀ (key : String) (a b : ℚ), b - a ≤ window →
      admitted key a b ((SlidingWindowLimiter.new maxHits window).outcomes cs) ≤ maxHits) ∧
    (∀ (before behind : List Check) (c : Check), cs = before ++ c :: behind →
      ((SlidingWindowLimiter.new maxHits window).after before).rejects c = true →
        maxHits ≤ admitted c.key (c.time - window) c.time
          ((SlidingWindowLimiter.new maxHits window).outcomes before)) ∧
    (∀ (key : String) (before behind : List Check) (c : Check), cs = before ++ c :: behind →
      (c.key ≠ key ∨
        ((SlidingWindowLimiter.new maxHits window).after before).rejects c = true) →
        (((SlidingWindowLimiter.new maxHits window).after (before ++ [c])).outcomes behind).filter
            (fun e => decide (e.1.key = key)) =
          (((SlidingWindowLimiter.new maxHits window).after before).outcomes behind).filter
            (fun e => decide (e.1.key = key))) := by
  refine ⟨fun key a b hab => ?_, fun before behind c hcs hrejects => ?_,
    fun key before behind c hcs hc => ?_⟩
  · rw [outcomes_eq_run maxHits window h]
    exact admitted_run_le h key hab
  · subst hcs
    rw [rejects_eq h] at hrejects
    rw [outcomes_eq_run maxHits window (List.pairwise_append.mp h).1]
    have hfull : admits maxHits window (run maxHits window [] before) c = false := by
      simpa using hrejects
    exact not_lt.mp (of_decide_eq_false hfull)
  · subst hcs
    have hwith : InOrder ((before ++ [c]) ++ behind) := by
      rw [List.append_assoc]
      exact h
    have hwithout : InOrder (before ++ behind) :=
      h.sublist (List.Sublist.append_left (List.sublist_cons_self c behind) before)
    rw [rejects_eq h] at hc
    rw [outcomes_after hwith, outcomes_after hwithout]
    exact run_without behind (hc.imp id (fun hrejected => by simpa using hrejected))

/-- Four checks of one key, two to a window. -/
theorem slidingWindow_exact_login :
    admitted "login" 0 60 ((SlidingWindowLimiter.new 2 60).outcomes
      [⟨"login", 0⟩, ⟨"login", 60⟩, ⟨"login", 60⟩, ⟨"login", 61⟩]) ≤ 2 :=
  (slidingWindow_exact 2 60 (by simp only [InOrder]; decide +kernel)).1 "login" 0 60 (by norm_num)

end MegaPanel.RateLimit

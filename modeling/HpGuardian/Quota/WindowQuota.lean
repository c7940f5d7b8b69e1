import HpGuardian.Quota.Store

/-!
# The fixed-window quota over whole runs

A run of the store is a list of calls, each with a key and a clock reading; the limit is a
function of the key, as it is for the rules of one policy.  The quota property bounds the granted
calls of every key in every window `[k·w, (k+1)·w)` of that key's own length.

One stored pair per key summarises the key's history as long as the bucket of a window that is
still open is never dropped.  The eviction pass compares every bucket's start with the *caller's*
window start, so with different window lengths it can drop an open bucket of another key, and the
key then starts again from zero (`quota_exceeded_by_eviction`).  `KeepsOpenBuckets` is the
condition on a step that excludes exactly this, and under it the quota holds on every run
(`granted_le_maxCalls`).
-/

namespace HpGuardian

open Framework

/-- One call of the store: the key and the clock reading. -/
structure QuotaCall where
  key : RateLimitKey
  now : ℕ
  deriving DecidableEq

/-- A limit for every key whose two fields are in `1..=86400`. The store is told the limit with
each call; that it is always the same one for a key is what this table adds. -/
structure KeyLimits where
  limit : RateLimitKey → RateLimit
  maxCalls_pos : ∀ key, 1 ≤ (limit key).maxCalls
  maxCalls_le : ∀ key, (limit key).maxCalls ≤ 86400
  window_pos : ∀ key, 1 ≤ (limit key).windowSeconds
  window_le : ∀ key, (limit key).windowSeconds ≤ 86400

/-- The store of capacity `maxKeys` as a machine. -/
def quotaMachine (maxKeys : ℕ) (limits : KeyLimits) :
    Machine StateInner QuotaCall (Except StateError Bool) where
  step inner call := checkAndConsume maxKeys inner call.key (limits.limit call.key) call.now

/-- The history of a run: every call with its answer. -/
abbrev QuotaHistory := List (QuotaCall × Except StateError Bool)

/-- The call is the key's, was granted, and its reading lies in the key's `k`-th window. Windows
are aligned to multiples of their length, whatever the first reading was. -/
def GrantedIn (limits : KeyLimits) (key : RateLimitKey) (k : ℕ)
    (entry : QuotaCall × Except StateError Bool) : Prop :=
  entry.1.key = key ∧ entry.2 = .ok true ∧
    k * (limits.limit key).windowSeconds ≤ entry.1.now ∧
    entry.1.now < (k + 1) * (limits.limit key).windowSeconds

instance (limits : KeyLimits) (key : RateLimitKey) (k : ℕ)
    (entry : QuotaCall × Except StateError Bool) : Decidable (GrantedIn limits key k entry) :=
  have : DecidableEq (Except StateError Bool) := fun a b =>
    match a, b with
    | .ok a, .ok b => decidable_of_iff (a = b) (by simp)
    | .error a, .error b => decidable_of_iff (a = b) (by simp)
    | .ok _, .error _ => .isFalse (by simp)
    | .error _, .ok _ => .isFalse (by simp)
  inferInstanceAs (Decidable (_ ∧ _))

/-- The number of granted calls of a key in its `k`-th window. -/
def granted (limits : KeyLimits) (h : QuotaHistory) (key : RateLimitKey) (k : ℕ) : ℕ :=
  h.countP (fun entry => GrantedIn limits key k entry)

/-- A step keeps open buckets: if it reaches the eviction pass, every bucket of another window
start that the pass drops belongs to a window of its own key that has already ended. -/
def KeepsOpenBuckets (maxKeys : ℕ) (limits : KeyLimits) (inner : StateInner)
    (call : QuotaCall) : Prop :=
  ¬ Regressed inner call.now → NoRoom maxKeys inner.buckets call.key →
    ∀ key start count, inner.buckets.lookup key = some (start, count) →
      start ≠ windowStart (limits.limit call.key) call.now →
      start + (limits.limit key).windowSeconds ≤ call.now

instance (maxKeys : ℕ) (limits : KeyLimits) (inner : StateInner) (call : QuotaCall) :
    Decidable (KeepsOpenBuckets maxKeys limits inner call) :=
  decidable_of_iff (¬ Regressed inner call.now → NoRoom maxKeys inner.buckets call.key →
      inner.buckets.everyEntry (fun key bucket =>
        bucket.1 == windowStart (limits.limit call.key) call.now ||
          decide (bucket.1 + (limits.limit key).windowSeconds ≤ call.now)) = true) (by
    simp only [KeepsOpenBuckets, Finmap.everyEntry_iff, Prod.forall, Bool.or_eq_true,
      beq_iff_eq, decide_eq_true_eq, or_iff_not_imp_left, ne_eq])

/-- One call per window for every key: 100-second windows for rule 0, 60-second windows for the
other rules. -/
def twoWindowLimits : KeyLimits where
  limit key := if key.ruleIndex = 0 then ⟨1, 100⟩ else ⟨1, 60⟩
  maxCalls_pos key := by split <;> decide
  maxCalls_le key := by split <;> decide
  window_pos key := by split <;> decide
  window_le key := by split <;> decide

/-- The key of a rule for calls without agent, user or tool. -/
def anonymousKey (ruleIndex : ℕ) : RateLimitKey := ⟨"policy", ruleIndex, none, none, none⟩

/-! ## Window arithmetic

Windows are numbered by integer division. -/

theorem windowStart_eq (limit : RateLimit) (now : ℕ) :
    windowStart limit now = now / limit.windowSeconds * limit.windowSeconds := by
  have hdiv := Nat.div_add_mod' now limit.windowSeconds
  unfold windowStart
  omega

theorem windowStart_le (limit : RateLimit) (now : ℕ) : windowStart limit now ≤ now :=
  Nat.sub_le _ _

/-- A reading lies in the `k`-th window iff `k` is its window number. -/
theorem mem_window_iff {w : ℕ} (hw : 1 ≤ w) (now k : ℕ) :
    k * w ≤ now ∧ now < (k + 1) * w ↔ now / w = k := by
  rw [Nat.div_eq_iff (by omega)]
  have hsucc : (k + 1) * w = k * w + w := Nat.succ_mul k w
  omega

/-! ## The history of one more call

How a call changes what was granted in a window. -/

section History

variable {limits : KeyLimits} {h : QuotaHistory} {call : QuotaCall} {key : RateLimitKey} {k : ℕ}

theorem granted_append (result : Except StateError Bool) :
    granted limits (h ++ [(call, result)]) key k =
      granted limits h key k + if GrantedIn limits key k (call, result) then 1 else 0 := by
  simp [granted, List.countP_append, List.countP_singleton]

theorem granted_append_of_ne_ok {result : Except StateError Bool} (hres : result ≠ .ok true) :
    granted limits (h ++ [(call, result)]) key k = granted limits h key k := by
  rw [granted_append, if_neg (fun hg => hres hg.2.1), Nat.add_zero]

theorem grantedIn_ok_iff :
    GrantedIn limits key k (call, .ok true) ↔
      call.key = key ∧ call.now / (limits.limit key).windowSeconds = k := by
  rw [← mem_window_iff (limits.window_pos key)]
  simp [GrantedIn]

end History

/-! ## The invariant

What ties the buckets to the history, and its preservation by a step that keeps open buckets. -/

/-- A reading at or after the last accepted one can still fall into the key's `k`-th window. A
window that is not open never counts again, so its bucket may go. -/
def WindowOpen (limits : KeyLimits) (inner : StateInner) (key : RateLimitKey) (k : ℕ) : Prop :=
  ∀ last ∈ inner.lastNow, last < (k + 1) * (limits.limit key).windowSeconds

/-- What ties the store to its history: buckets start at a window of their key that is not in
the future, no key exceeds its quota in any window, and in a window that is still open the
bucket accounts for every granted call. -/
structure QuotaInvariant (limits : KeyLimits) (h : QuotaHistory) (inner : StateInner) :
    Prop where
  aligned : ∀ key start count, inner.buckets.lookup key = some (start, count) →
    ∃ k, start = k * (limits.limit key).windowSeconds ∧ ∃ last ∈ inner.lastNow, start ≤ last
  counted : ∀ key k, WindowOpen limits inner key k →
    granted limits h key k ≤
      countInWindow inner.buckets key (k * (limits.limit key).windowSeconds)
  bounded : ∀ key k, granted limits h key k ≤ (limits.limit key).maxCalls

theorem quotaInvariant_empty (limits : KeyLimits) : QuotaInvariant limits [] .empty where
  aligned := by simp [StateInner.empty]
  counted := by simp [granted]
  bounded := by simp [granted]

section Step

variable {maxKeys : ℕ} {limits : KeyLimits} {h : QuotaHistory} {inner : StateInner}
  {call : QuotaCall}

/-- A window open at a later reading was open before. -/
theorem WindowOpen.before {buckets : Buckets} {key : RateLimitKey} {k : ℕ}
    (hreg : ¬ Regressed inner call.now)
    (hopen : WindowOpen limits ⟨some call.now, buckets⟩ key k) :
    WindowOpen limits inner key k := by
  intro last hlast
  have hle : last ≤ call.now := not_lt.1 (fun hlt => hreg ⟨last, hlast, hlt⟩)
  exact lt_of_le_of_lt hle (hopen call.now rfl)

/-- Making room loses no count of an open window. -/
theorem countInWindow_makeRoom
    (hkeep : KeepsOpenBuckets maxKeys limits inner call) (hreg : ¬ Regressed inner call.now)
    (key : RateLimitKey) {k : ℕ} (hopen : call.now < (k + 1) * (limits.limit key).windowSeconds) :
    countInWindow inner.buckets key (k * (limits.limit key).windowSeconds) ≤
      countInWindow (makeRoom maxKeys inner.buckets call.key
        (windowStart (limits.limit call.key) call.now)) key
          (k * (limits.limit key).windowSeconds) := by
  unfold makeRoom
  split
  · rename_i hroom
    cases hlook : inner.buckets.lookup key with
    | none => simp [countInWindow_of_notMem hlook]
    | some bucket =>
        obtain ⟨start, count⟩ := bucket
        rw [countInWindow_of_lookup hlook]
        by_cases hstart : start = windowStart (limits.limit call.key) call.now
        · -- the caller's own window start survives the pass
          have hkept : (evictOtherWindows inner.buckets
              (windowStart (limits.limit call.key) call.now)).lookup key = some (start, count) := by
            simp [evictOtherWindows, Finmap.lookup_retain, hlook, hstart]
          rw [countInWindow_of_lookup hkept]
        · -- a dropped bucket's window has ended, so it is not the open `k`-th one
          have hended := hkeep hreg hroom key start count hlook hstart
          have hsucc : (k + 1) * (limits.limit key).windowSeconds =
            k * (limits.limit key).windowSeconds + (limits.limit key).windowSeconds :=
              Nat.succ_mul _ _
          rw [if_neg (by omega)]
          exact Nat.zero_le _
  · exact le_rfl

/-- Every surviving or inserted bucket is aligned with a window of its key. -/
theorem aligned_insert (hinv : QuotaInvariant limits h inner) (hreg : ¬ Regressed inner call.now)
    {buckets : Buckets} (hsub : ∀ key bucket, buckets.lookup key = some bucket →
      inner.buckets.lookup key = some bucket) (n : ℕ) :
    ∀ key start count,
      (buckets.insert call.key
        (windowStart (limits.limit call.key) call.now, n)).lookup key = some (start, count) →
      ∃ k, start = k * (limits.limit key).windowSeconds ∧
        ∃ last ∈ (some call.now : Option ℕ), start ≤ last := by
  intro key start count hlook
  by_cases hkey : key = call.key
  · subst hkey
    rw [Finmap.lookup_insert] at hlook
    obtain ⟨rfl, rfl⟩ := Prod.mk.inj (Option.some.inj hlook)
    exact ⟨_, windowStart_eq _ _, call.now, rfl, windowStart_le _ _⟩
  · rw [Finmap.lookup_insert_of_ne _ hkey] at hlook
    obtain ⟨k, hk, last, hlast, hle⟩ := hinv.aligned key start count (hsub _ _ hlook)
    have hnow : last ≤ call.now := not_lt.1 (fun hlt => hreg ⟨last, hlast, hlt⟩)
    exact ⟨k, hk, call.now, rfl, hle.trans hnow⟩

/-- Rolling the caller's bucket over loses no count of a window that is open at the reading. -/
theorem countInWindow_rollover {buckets : Buckets} {k n : ℕ}
    (hinv : QuotaInvariant limits h inner) (hreg : ¬ Regressed inner call.now)
    (hopen : call.now < (k + 1) * (limits.limit call.key).windowSeconds)
    (hn : call.now / (limits.limit call.key).windowSeconds = k →
      granted limits h call.key k ≤ n) :
    granted limits h call.key k ≤
      countInWindow (buckets.insert call.key
        (windowStart (limits.limit call.key) call.now, n)) call.key
          (k * (limits.limit call.key).windowSeconds) := by
  have hwin := windowStart_eq (limits.limit call.key) call.now
  by_cases hk : call.now / (limits.limit call.key).windowSeconds = k
  · rw [← hk, ← hwin, countInWindow_insert_self, hk]
    exact hn hk
  · -- a later window: nothing was granted in it yet
    have hopenAfter : WindowOpen limits ⟨some call.now, buckets⟩ call.key k := by
      intro last hlast
      obtain rfl : call.now = last := by simpa using hlast
      exact hopen
    have hwinopen : WindowOpen limits inner call.key k := hopenAfter.before hreg
    have hlater : call.now < k * (limits.limit call.key).windowSeconds := by
      by_contra hcon
      exact hk ((mem_window_iff (limits.window_pos _) _ _).1 ⟨not_lt.1 hcon, hopen⟩)
    have hold := hinv.counted call.key k hwinopen
    cases hlook : inner.buckets.lookup call.key with
    | none =>
        rw [countInWindow_of_notMem hlook] at hold
        omega
    | some bucket =>
        obtain ⟨start, count⟩ := bucket
        obtain ⟨j, -, last, hlast, hle⟩ := hinv.aligned call.key start count hlook
        have hnow : last ≤ call.now := not_lt.1 (fun hlt => hreg ⟨last, hlast, hlt⟩)
        rw [countInWindow_of_lookup hlook, if_neg (by omega)] at hold
        omega

/-- **The step lemma.**  A step that keeps open buckets preserves the invariant. -/
theorem quotaInvariant_step (hinv : QuotaInvariant limits h inner)
    (hkeep : KeepsOpenBuckets maxKeys limits inner call) :
    QuotaInvariant limits
      (h ++ [(call, ((quotaMachine maxKeys limits).step inner call).2)])
      ((quotaMachine maxKeys limits).step inner call).1 := by
  have hopenNow : ∀ (b : Buckets) key k, WindowOpen limits ⟨some call.now, b⟩ key k →
      call.now < (k + 1) * (limits.limit key).windowSeconds := fun b key k ho => ho _ rfl
  simp only [quotaMachine]
  rcases checkAndConsume_cases maxKeys inner call.key (limits.limit call.key) call.now with
    ⟨-, heq⟩ | ⟨hreg, hfull, heq⟩ | ⟨hreg, -, -, heq⟩ | ⟨hreg, hlt, -, heq⟩ <;> rw [heq]
  · -- the clock regressed: nothing changes and nothing is granted
    refine ⟨hinv.aligned, fun key k ho => ?_, fun key k => ?_⟩
    · rw [granted_append_of_ne_ok (by simp)]
      exact hinv.counted key k ho
    · rw [granted_append_of_ne_ok (by simp)]
      exact hinv.bounded key k
  · -- throttled: the caller's bucket is written back unchanged in its window
    refine ⟨aligned_insert hinv hreg (fun _ _ hl => hl) _, fun key k ho => ?_, fun key k => ?_⟩
    · rw [granted_append_of_ne_ok (by simp)]
      by_cases hkey : key = call.key
      · subst hkey
        refine countInWindow_rollover hinv hreg (hopenNow _ _ _ ho) (fun hk => ?_)
        rw [windowStart_eq, hk]
        exact hinv.counted call.key k (ho.before hreg)
      · rw [countInWindow_insert_of_ne _ hkey]
        exact hinv.counted key k (ho.before hreg)
    · rw [granted_append_of_ne_ok (by simp)]
      exact hinv.bounded key k
  · -- full: the reading is accepted and the pass may have dropped ended buckets
    refine ⟨fun key start count hlook => ?_, fun key k ho => ?_, fun key k => ?_⟩
    · obtain ⟨k, hk, last, hlast, hle⟩ := hinv.aligned key start count (lookup_makeRoom hlook)
      have hnow : last ≤ call.now := not_lt.1 (fun hlt => hreg ⟨last, hlast, hlt⟩)
      exact ⟨k, hk, call.now, rfl, hle.trans hnow⟩
    · rw [granted_append_of_ne_ok (by simp)]
      exact (hinv.counted key k (ho.before hreg)).trans
        (countInWindow_makeRoom hkeep hreg key (hopenNow _ _ _ ho))
    · rw [granted_append_of_ne_ok (by simp)]
      exact hinv.bounded key k
  · -- granted: the caller's count in the current window goes up by one
    have hcount : ∀ k, call.now / (limits.limit call.key).windowSeconds = k →
        granted limits h call.key k ≤ countInWindow inner.buckets call.key
          (windowStart (limits.limit call.key) call.now) := by
      intro k hk
      have hmem := (mem_window_iff (limits.window_pos call.key) call.now k).2 hk
      rw [windowStart_eq, hk]
      refine hinv.counted call.key k (fun last hlast => ?_)
      have hle : last ≤ call.now := not_lt.1 (fun hlt => hreg ⟨last, hlast, hlt⟩)
      omega
    refine ⟨aligned_insert hinv hreg (fun _ _ hl => lookup_makeRoom hl) _,
      fun key k ho => ?_, fun key k => ?_⟩
    · rw [granted_append]
      by_cases hkey : key = call.key
      · subst hkey
        by_cases hk : call.now / (limits.limit call.key).windowSeconds = k
        · rw [if_pos (grantedIn_ok_iff.2 ⟨rfl, hk⟩), ← hk, ← windowStart_eq,
            countInWindow_insert_self]
          exact Nat.succ_le_succ (hcount _ rfl)
        · rw [if_neg (fun hg => hk (grantedIn_ok_iff.1 hg).2), Nat.add_zero]
          exact countInWindow_rollover hinv hreg (hopenNow _ _ _ ho) (fun h' => absurd h' hk)
      · rw [if_neg (fun hg => hkey (grantedIn_ok_iff.1 hg).1.symm), Nat.add_zero,
          countInWindow_insert_of_ne _ hkey]
        exact (hinv.counted key k (ho.before hreg)).trans
          (countInWindow_makeRoom hkeep hreg key (hopenNow _ _ _ ho))
    · rw [granted_append]
      by_cases hg : GrantedIn limits key k (call, .ok true)
      · obtain ⟨rfl, hk⟩ := grantedIn_ok_iff.1 hg
        rw [if_pos hg]
        exact (Nat.succ_le_succ (hcount k hk)).trans hlt
      · rw [if_neg hg, Nat.add_zero]
        exact hinv.bounded key k

end Step

/-! ## The quota

The bound on granted calls, on every run. -/

/-- **Fixed-window quota safety.** Along a run from the empty store in which no eviction pass drops
a bucket of an open window, no key is granted more than its quota in any of its windows. The keys
may have windows of different lengths; the condition is about the passes alone. -/
theorem granted_le_maxCalls (maxKeys : ℕ) (limits : KeyLimits) (calls : List QuotaCall)
    (hkeep : (quotaMachine maxKeys limits).Along (KeepsOpenBuckets maxKeys limits)
      StateInner.empty calls) (key : RateLimitKey) (k : ℕ) :
    granted limits ((quotaMachine maxKeys limits).trace StateInner.empty calls) key k ≤
      (limits.limit key).maxCalls :=
  ((quotaMachine maxKeys limits).history_invariant
    (fun _ _ _ hinv hk => quotaInvariant_step hinv hk) (quotaInvariant_empty limits) hkeep).bounded
    key k

/-- A run that reaches an eviction pass, which drops a bucket whose window has ended. -/
theorem granted_le_maxCalls_after_eviction :
    granted twoWindowLimits ((quotaMachine 1 twoWindowLimits).trace StateInner.empty
      [⟨anonymousKey 0, 60⟩, ⟨anonymousKey 1, 161⟩]) (anonymousKey 1) 2 ≤ 1 :=
  granted_le_maxCalls 1 twoWindowLimits [⟨anonymousKey 0, 60⟩, ⟨anonymousKey 1, 161⟩]
    (by decide) (anonymousKey 1) 2

/-! ## An eviction that breaks the quota

Three calls in a store of capacity one. -/

/-- In a store of capacity one, the call of rule 1 at 61 drops the open bucket `[0, 100)` of
rule 0, whose second call at 62 is then granted again. -/
def evictingCalls : List QuotaCall :=
  [⟨anonymousKey 0, 60⟩, ⟨anonymousKey 1, 61⟩, ⟨anonymousKey 0, 62⟩]

/-- The quota does not hold on every run. The pass for the one-minute window of rule 1 drops the
bucket of rule 0, whose window of a hundred seconds is still open, and the third call is granted
anew. -/
theorem quota_exceeded_by_eviction :
    ¬ ∀ (maxKeys : ℕ) (limits : KeyLimits) (calls : List QuotaCall) (key : RateLimitKey) (k : ℕ),
      1 ≤ maxKeys →
        granted limits ((quotaMachine maxKeys limits).trace StateInner.empty calls) key k ≤
          (limits.limit key).maxCalls := by
  intro hquota
  have htwice : granted twoWindowLimits
      ((quotaMachine 1 twoWindowLimits).trace StateInner.empty evictingCalls)
        (anonymousKey 0) 0 = 2 := by decide
  have hle := hquota 1 twoWindowLimits evictingCalls (anonymousKey 0) 0 le_rfl
  rw [htwice] at hle
  exact absurd hle (by decide)

end HpGuardian

import HpGuardian.Framework.Runs
import HpGuardian.Policy.Models

/-!
# The in-memory fixed-window quota store (`src/state.rs`)

A store keeps one bucket `(window_start, count)` per key together with the last clock reading it
accepted.  `checkAndConsume` is the whole of the locked section: it refuses a clock that moved
backwards, rolls the key's bucket over into the current window, throttles an exhausted key, and
makes room by an eviction pass when a new key meets a full store.

Since the lock is held throughout, a call is one step of the store, and concurrent callers are a
sequence of calls in the order in which they get the lock.

The pass compares the start of every bucket with the start of the caller's window, in whatever
window length the bucket's own key has.  What that means for keys with other windows is the subject
of the modules about quotas and about capacity; here it is only translated.
`checkAndConsume_cases` lists the four ways in which a call can end, each with the state it leaves
behind, and is what all of them start from.
-/

namespace HpGuardian

/-- Stable error emitted when a required state operation cannot be completed
(`state_unavailable`). -/
inductive StateError where
  | stateUnavailable
  deriving DecidableEq, Repr

/-- Stable identity for one policy rule and normalized call subject. The digest of the policy is
part of it, so policies that share a store never share a bucket. -/
structure RateLimitKey where
  policyDigest : String
  ruleIndex : ℕ
  agent : Option String
  user : Option String
  tool : Option String
  deriving DecidableEq, Repr

/-- The buckets of a store: the window start and the calls counted in that window. -/
abbrev Buckets := Finmap (fun _ : RateLimitKey => ℕ × ℕ)

/-- The locked state of a store: the last accepted reading of the clock and the buckets. Every call
is one step on it, since the lock is held throughout. -/
structure StateInner where
  lastNow : Option ℕ
  buckets : Buckets
  deriving DecidableEq

/-- `StateInner::default`. -/
def StateInner.empty : StateInner := ⟨none, ∅⟩

/-- The start of the fixed window a clock reading falls into. -/
def windowStart (limit : RateLimit) (nowSeconds : ℕ) : ℕ :=
  nowSeconds - nowSeconds % limit.windowSeconds

/-- The eviction pass: `retain(|_, (start, _)| start == window_start)`. -/
def evictOtherWindows (buckets : Buckets) (start : ℕ) : Buckets :=
  buckets.retain (fun _ bucket => bucket.1 == start)

/-- The store is full and has no bucket for the key, so a new bucket does not fit. -/
def NoRoom (maxKeys : ℕ) (buckets : Buckets) (key : RateLimitKey) : Prop :=
  key ∉ buckets ∧ maxKeys ≤ buckets.size

instance (maxKeys : ℕ) (buckets : Buckets) (key : RateLimitKey) :
    Decidable (NoRoom maxKeys buckets key) :=
  inferInstanceAs (Decidable (_ ∧ _))

/-- The buckets after the store has tried to make room for the key. -/
def makeRoom (maxKeys : ℕ) (buckets : Buckets) (key : RateLimitKey) (start : ℕ) : Buckets :=
  if NoRoom maxKeys buckets key then evictOtherWindows buckets start else buckets

/-- The calls already counted for the key in the window that starts at `start`; a bucket of
another window counts for nothing. -/
def countInWindow (buckets : Buckets) (key : RateLimitKey) (start : ℕ) : ℕ :=
  let (previousStart, count) := (buckets.lookup key).getD (start, 0)
  if previousStart ≠ start then 0 else count

/-- The clock reading is below the last one the store accepted. -/
def Regressed (inner : StateInner) (nowSeconds : ℕ) : Prop :=
  ∃ last ∈ inner.lastNow, nowSeconds < last

instance (inner : StateInner) (nowSeconds : ℕ) : Decidable (Regressed inner nowSeconds) :=
  inferInstanceAs (Decidable (∃ last ∈ inner.lastNow, nowSeconds < last))

/-- `InMemoryRateLimitStore::check_and_consume` on the locked state of a store of capacity
`maxKeys`. -/
def checkAndConsume (maxKeys : ℕ) (inner : StateInner) (key : RateLimitKey) (limit : RateLimit)
    (nowSeconds : ℕ) : StateInner × Except StateError Bool :=
  if Regressed inner nowSeconds then
    (inner, .error .stateUnavailable)
  else
    let start := windowStart limit nowSeconds
    let count := countInWindow inner.buckets key start
    if limit.maxCalls ≤ count then
      (⟨some nowSeconds, inner.buckets.insert key (start, count)⟩, .ok false)
    else
      let buckets := makeRoom maxKeys inner.buckets key start
      -- The pass may free nothing; the reading is accepted all the same.
      if NoRoom maxKeys buckets key then
        (⟨some nowSeconds, buckets⟩, .error .stateUnavailable)
      else
        (⟨some nowSeconds, buckets.insert key (start, count + 1)⟩, .ok true)

/-! ## What one call can do

The inversion of a call, and the count of a key after the operations on buckets. -/

section

variable {maxKeys : ℕ} {inner : StateInner} {key : RateLimitKey} {limit : RateLimit} {now : ℕ}

/-- The four outcomes of a call: the clock regressed, the key is exhausted, the store is full,
or one slot is consumed. -/
theorem checkAndConsume_cases (maxKeys : ℕ) (inner : StateInner) (key : RateLimitKey)
    (limit : RateLimit) (now : ℕ) :
    (Regressed inner now ∧
      checkAndConsume maxKeys inner key limit now = (inner, .error .stateUnavailable)) ∨
    (¬ Regressed inner now ∧
      limit.maxCalls ≤ countInWindow inner.buckets key (windowStart limit now) ∧
      checkAndConsume maxKeys inner key limit now =
        (⟨some now, inner.buckets.insert key (windowStart limit now,
          countInWindow inner.buckets key (windowStart limit now))⟩, .ok false)) ∨
    (¬ Regressed inner now ∧
      countInWindow inner.buckets key (windowStart limit now) < limit.maxCalls ∧
      NoRoom maxKeys (makeRoom maxKeys inner.buckets key (windowStart limit now)) key ∧
      checkAndConsume maxKeys inner key limit now =
        (⟨some now, makeRoom maxKeys inner.buckets key (windowStart limit now)⟩,
          .error .stateUnavailable)) ∨
    (¬ Regressed inner now ∧
      countInWindow inner.buckets key (windowStart limit now) < limit.maxCalls ∧
      ¬ NoRoom maxKeys (makeRoom maxKeys inner.buckets key (windowStart limit now)) key ∧
      checkAndConsume maxKeys inner key limit now =
        (⟨some now, (makeRoom maxKeys inner.buckets key (windowStart limit now)).insert key
          (windowStart limit now,
            countInWindow inner.buckets key (windowStart limit now) + 1)⟩, .ok true)) := by
  unfold checkAndConsume
  by_cases hreg : Regressed inner now
  · exact .inl ⟨hreg, if_pos hreg⟩
  · rw [if_neg hreg]
    by_cases hcount : limit.maxCalls ≤ countInWindow inner.buckets key (windowStart limit now)
    · exact .inr (.inl ⟨hreg, hcount, if_pos hcount⟩)
    · rw [if_neg hcount]
      by_cases hroom :
          NoRoom maxKeys (makeRoom maxKeys inner.buckets key (windowStart limit now)) key
      · exact .inr (.inr (.inl ⟨hreg, not_le.1 hcount, hroom, if_pos hroom⟩))
      · exact .inr (.inr (.inr ⟨hreg, not_le.1 hcount, hroom, if_neg hroom⟩))

theorem countInWindow_of_lookup {buckets : Buckets} {start st count : ℕ}
    (h : buckets.lookup key = some (st, count)) :
    countInWindow buckets key start = if st = start then count else 0 := by
  simp [countInWindow, h]

theorem countInWindow_of_notMem {buckets : Buckets} {start : ℕ}
    (h : buckets.lookup key = none) : countInWindow buckets key start = 0 := by
  simp [countInWindow, h]

@[simp] theorem countInWindow_insert_self (buckets : Buckets) (start count : ℕ) :
    countInWindow (buckets.insert key (start, count)) key start = count := by
  simp [countInWindow]

theorem countInWindow_insert_of_ne (buckets : Buckets) {other : RateLimitKey} (h : other ≠ key)
    (bucket : ℕ × ℕ) (start : ℕ) :
    countInWindow (buckets.insert key bucket) other start = countInWindow buckets other start := by
  simp [countInWindow, Finmap.lookup_insert_of_ne _ h]

theorem lookup_makeRoom {buckets : Buckets} {start : ℕ} {other : RateLimitKey} {bucket : ℕ × ℕ}
    (h : (makeRoom maxKeys buckets key start).lookup other = some bucket) :
    buckets.lookup other = some bucket := by
  unfold makeRoom at h
  split at h
  · rw [evictOtherWindows, Finmap.lookup_retain, Option.filter_eq_some_iff] at h
    exact h.1
  · exact h

end

end HpGuardian

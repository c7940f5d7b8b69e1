import HpGuardian.Quota.WindowQuota

/-!
# The capacity of the quota store

Whatever calls a store has answered, `StoreInvariant` holds of its state: it has at most `maxKeys`
buckets, and each is the bucket of its key, which starts with a window of the key that has begun
and counts no more than the quota.  A call that fails leaves the buckets as they were
(`store_sound_over_runs`): where the eviction pass drops a bucket there is room afterwards, so the
call succeeds.

The pass keeps the buckets that start where the caller's window starts.  If there is still no room,
it has dropped nothing, so the store is full of such buckets (`StoreInvariant.full_of_noRoom`).  A
bucket with a shorter window may have ended and be kept all the same; `EndedBucketKept` says when a
call fails because of such a bucket, and `refusedOnlyWhenFull_iff` that it is the only way to fail
with room to spare.

The invariant is about every reachable state, for any limits of the keys and any readings of the
clock, those that run backwards included.  The condition is one on the state before the call and on
the call.
-/

namespace HpGuardian

open Framework

/-! ## The invariant of a store

What a bucket is, what holds of all buckets together, and the four ways in which a call can end. -/

/-- The bucket of a key: it starts with a window of the key that has begun at the last accepted
reading, and its count is within the quota. -/
structure BucketOf (limits : KeyLimits) (lastNow : Option ℕ) (key : RateLimitKey)
    (start count : ℕ) : Prop where
  aligned : (limits.limit key).windowSeconds ∣ start
  begun : ∃ last ∈ lastNow, start ≤ last
  count_pos : 1 ≤ count
  count_le : count ≤ (limits.limit key).maxCalls

/-- What holds of a store in every state that it can reach: at most `maxKeys` buckets, each of them
the bucket of its key at the last accepted reading. -/
structure StoreInvariant (maxKeys : ℕ) (limits : KeyLimits) (inner : StateInner) : Prop where
  size_le : inner.buckets.size ≤ maxKeys
  bucket : ∀ key start count, inner.buckets.lookup key = some (start, count) →
    BucketOf limits inner.lastNow key start count

theorem storeInvariant_empty (maxKeys : ℕ) (limits : KeyLimits) :
    StoreInvariant maxKeys limits .empty where
  size_le := by simp [StateInner.empty]
  bucket := by simp [StateInner.empty]

section Step

variable {maxKeys : ℕ} {limits : KeyLimits} {inner : StateInner} {call : QuotaCall}

/-- A bucket stays one when a later reading is accepted. -/
theorem BucketOf.later {key : RateLimitKey} {start count : ℕ}
    (h : BucketOf limits inner.lastNow key start count) (hreg : ¬ Regressed inner call.now) :
    BucketOf limits (some call.now) key start count := by
  obtain ⟨last, hlast, hle⟩ := h.begun
  have hnow : last ≤ call.now := not_lt.1 (fun hlt => hreg ⟨last, hlast, hlt⟩)
  exact ⟨h.aligned, ⟨call.now, rfl, hle.trans hnow⟩, h.count_pos, h.count_le⟩

/-- The bucket that a call writes. -/
theorem bucketOf_windowStart {n : ℕ} (hpos : 1 ≤ n)
    (hle : n ≤ (limits.limit call.key).maxCalls) :
    BucketOf limits (some call.now) call.key (windowStart (limits.limit call.key) call.now) n where
  aligned := ⟨_, (windowStart_eq _ _).trans (Nat.mul_comm _ _)⟩
  begun := ⟨call.now, rfl, windowStart_le _ _⟩
  count_pos := hpos
  count_le := hle

/-- The count of the caller's window is within its quota, and is zero for a key without a
bucket. -/
theorem StoreInvariant.countInWindow_le (hinv : StoreInvariant maxKeys limits inner)
    (key : RateLimitKey) (start : ℕ) :
    countInWindow inner.buckets key start ≤ (limits.limit key).maxCalls := by
  cases hlook : inner.buckets.lookup key with
  | none =>
      rw [countInWindow_of_notMem hlook]
      exact Nat.zero_le _
  | some bucket =>
      obtain ⟨previousStart, count⟩ := bucket
      rw [countInWindow_of_lookup hlook]
      split
      · exact (hinv.bucket _ _ _ hlook).count_le
      · exact Nat.zero_le _

/-- A key that has used up its quota has a bucket. -/
theorem mem_of_exhausted
    (h : (limits.limit call.key).maxCalls ≤
      countInWindow inner.buckets call.key (windowStart (limits.limit call.key) call.now)) :
    call.key ∈ inner.buckets := by
  by_contra hmem
  rw [countInWindow_of_notMem (Finmap.lookup_eq_none.2 hmem)] at h
  exact absurd (limits.maxCalls_pos call.key) (by omega)

theorem size_makeRoom_le (buckets : Buckets) (key : RateLimitKey) (start : ℕ) :
    (makeRoom maxKeys buckets key start).size ≤ buckets.size := by
  unfold makeRoom
  split
  · exact Finmap.size_retain_le _ _
  · exact le_rfl

/-- If there is no room after the pass, the pass has dropped nothing: the store is full of buckets
that start where the caller's window starts. -/
theorem StoreInvariant.full_of_noRoom (hinv : StoreInvariant maxKeys limits inner)
    {key : RateLimitKey} {start : ℕ}
    (h : NoRoom maxKeys (makeRoom maxKeys inner.buckets key start) key) :
    NoRoom maxKeys inner.buckets key ∧ makeRoom maxKeys inner.buckets key start = inner.buckets ∧
      ∀ other start' count, inner.buckets.lookup other = some (start', count) →
        start' = start := by
  have hfull : NoRoom maxKeys inner.buckets key := by
    by_contra hroom
    rw [makeRoom, if_neg hroom] at h
    exact hroom h
  rw [makeRoom, if_pos hfull] at h ⊢
  have hstart : ∀ other bucket, inner.buckets.lookup other = some bucket →
      (bucket.1 == start) = true := fun other bucket hlook =>
    Finmap.passes_of_size_le (hinv.size_le.trans h.2) hlook
  refine ⟨hfull, Finmap.retain_eq_self hstart, fun other start' count hlook => ?_⟩
  simpa using hstart other _ hlook

/-- **The step lemma.**  Every call preserves the invariant. -/
theorem storeInvariant_step (hinv : StoreInvariant maxKeys limits inner) :
    StoreInvariant maxKeys limits ((quotaMachine maxKeys limits).step inner call).1 := by
  -- the caller's bucket is written, all others are kept or dropped
  have hinsert : ∀ {buckets : Buckets} {n : ℕ}, ¬ Regressed inner call.now → 1 ≤ n →
      n ≤ (limits.limit call.key).maxCalls →
      (∀ key bucket, buckets.lookup key = some bucket →
        inner.buckets.lookup key = some bucket) →
      ∀ key start count, (buckets.insert call.key
          (windowStart (limits.limit call.key) call.now, n)).lookup key = some (start, count) →
        BucketOf limits (some call.now) key start count := by
    intro buckets n hreg hpos hle hsub key start count hlook
    by_cases hkey : key = call.key
    · subst hkey
      rw [Finmap.lookup_insert] at hlook
      obtain ⟨rfl, rfl⟩ := Prod.mk.inj (Option.some.inj hlook)
      exact bucketOf_windowStart hpos hle
    · rw [Finmap.lookup_insert_of_ne _ hkey] at hlook
      exact (hinv.bucket _ _ _ (hsub _ _ hlook)).later hreg
  simp only [quotaMachine]
  rcases checkAndConsume_cases maxKeys inner call.key (limits.limit call.key) call.now with
    ⟨-, heq⟩ | ⟨hreg, hfull, heq⟩ | ⟨hreg, -, hroom, heq⟩ | ⟨hreg, hlt, hroom, heq⟩ <;> rw [heq]
  · exact hinv
  · -- exhausted: the key has a bucket already, so the store does not grow
    refine ⟨?_, hinsert hreg ((limits.maxCalls_pos _).trans hfull)
      (hinv.countInWindow_le _ _) (fun _ _ h => h)⟩
    rw [Finmap.size_insert_of_mem (mem_of_exhausted hfull)]
    exact hinv.size_le
  · refine ⟨(size_makeRoom_le _ _ _).trans hinv.size_le, fun key start count hlook => ?_⟩
    exact (hinv.bucket _ _ _ (lookup_makeRoom hlook)).later hreg
  · refine ⟨?_, hinsert hreg (Nat.succ_pos _) hlt (fun _ _ h => lookup_makeRoom h)⟩
    by_cases hmem : call.key ∈ makeRoom maxKeys inner.buckets call.key
        (windowStart (limits.limit call.key) call.now)
    · rw [Finmap.size_insert_of_mem hmem]
      exact (size_makeRoom_le _ _ _).trans hinv.size_le
    · rw [Finmap.size_insert_of_notMem hmem]
      exact not_le.1 fun hsize => hroom ⟨hmem, hsize⟩

/-- A call that fails leaves the buckets as they were; a clock that moved backwards leaves the
whole state. -/
theorem StoreInvariant.unchanged_of_error (hinv : StoreInvariant maxKeys limits inner)
    {error : StateError} (h : ((quotaMachine maxKeys limits).step inner call).2 = .error error) :
    ((quotaMachine maxKeys limits).step inner call).1.buckets = inner.buckets ∧
      (Regressed inner call.now →
        ((quotaMachine maxKeys limits).step inner call).1.lastNow = inner.lastNow) := by
  simp only [quotaMachine] at h ⊢
  rcases checkAndConsume_cases maxKeys inner call.key (limits.limit call.key) call.now with
    ⟨-, heq⟩ | ⟨-, -, heq⟩ | ⟨hreg, -, hroom, heq⟩ | ⟨-, -, -, heq⟩ <;> rw [heq] at h ⊢
  · exact ⟨rfl, fun _ => rfl⟩
  · cases h
  · exact ⟨(hinv.full_of_noRoom hroom).2.1, fun hregressed => absurd hregressed hreg⟩
  · cases h

end Step

/-- The last accepted reading never decreases. -/
theorem lastNow_step_le (maxKeys : ℕ) (limits : KeyLimits) (inner : StateInner) (call : QuotaCall) :
    ∀ last ∈ inner.lastNow,
      ∃ later ∈ ((quotaMachine maxKeys limits).step inner call).1.lastNow, last ≤ later := by
  intro last hlast
  have hnow : ¬ Regressed inner call.now → last ≤ call.now := fun hreg =>
    not_lt.1 fun hlt => hreg ⟨last, hlast, hlt⟩
  simp only [quotaMachine]
  rcases checkAndConsume_cases maxKeys inner call.key (limits.limit call.key) call.now with
    ⟨-, heq⟩ | ⟨hreg, -, heq⟩ | ⟨hreg, -, -, heq⟩ | ⟨hreg, -, -, heq⟩ <;> rw [heq]
  · exact ⟨last, hlast, le_rfl⟩
  · exact ⟨call.now, rfl, hnow hreg⟩
  · exact ⟨call.now, rfl, hnow hreg⟩
  · exact ⟨call.now, rfl, hnow hreg⟩

theorem storeInvariant_final (maxKeys : ℕ) (limits : KeyLimits) (calls : List QuotaCall) :
    StoreInvariant maxKeys limits ((quotaMachine maxKeys limits).final .empty calls) :=
  (quotaMachine maxKeys limits).history_invariant (I := fun _ inner =>
      StoreInvariant maxKeys limits inner) (fun _ _ _ hinv _ => storeInvariant_step hinv)
    (storeInvariant_empty maxKeys limits) (Machine.along_of_forall _ (fun _ _ => trivial) _ _)

/-- **What holds of the store over whole runs.**  In every state that calls lead to, the store has
at most `maxKeys` buckets, and each starts with a window of its key, not after the last accepted
reading, and counts between one and the key's quota.  The next call never lowers the last accepted
reading, and if it fails the buckets are exactly as before, and so is the last accepted reading if
the clock moved backwards. -/
theorem store_sound_over_runs (maxKeys : ℕ) (limits : KeyLimits) (calls : List QuotaCall) :
    StoreInvariant maxKeys limits ((quotaMachine maxKeys limits).final .empty calls) ∧
      ∀ call : QuotaCall,
        (∀ last ∈ ((quotaMachine maxKeys limits).final .empty calls).lastNow,
          ∃ later ∈ ((quotaMachine maxKeys limits).final .empty (calls ++ [call])).lastNow,
            last ≤ later) ∧
        ∀ error, ((quotaMachine maxKeys limits).step
              ((quotaMachine maxKeys limits).final .empty calls) call).2 = .error error →
          ((quotaMachine maxKeys limits).final .empty (calls ++ [call])).buckets =
              ((quotaMachine maxKeys limits).final .empty calls).buckets ∧
            (Regressed ((quotaMachine maxKeys limits).final .empty calls) call.now →
              ((quotaMachine maxKeys limits).final .empty (calls ++ [call])).lastNow =
                ((quotaMachine maxKeys limits).final .empty calls).lastNow) := by
  have hinv := storeInvariant_final maxKeys limits calls
  refine ⟨hinv, fun call => ?_⟩
  rw [Machine.final_append, Machine.final_cons, Machine.final_nil]
  exact ⟨lastNow_step_le maxKeys limits _ call, fun error herror => hinv.unchanged_of_error herror⟩

/-! ## Refusals for capacity

When a refusal is justified, and when the pass has kept a bucket that has ended. -/

/-- If the call fails, `maxKeys` other keys hold a bucket whose own window contains the
reading. -/
def RefusedOnlyWhenFull (maxKeys : ℕ) (limits : KeyLimits) (inner : StateInner)
    (call : QuotaCall) : Prop :=
  ∀ error, ((quotaMachine maxKeys limits).step inner call).2 = .error error →
    ∃ keys : Finset RateLimitKey, keys.card = maxKeys ∧ call.key ∉ keys ∧
      ∀ key ∈ keys, ∃ start count, inner.buckets.lookup key = some (start, count) ∧
        start ≤ call.now ∧ call.now < start + (limits.limit key).windowSeconds

/-- The store is full without the caller's key, every bucket starts where the caller's window
starts, so that the eviction pass drops none, and the own window of one of them has ended. -/
def EndedBucketKept (maxKeys : ℕ) (limits : KeyLimits) (inner : StateInner)
    (call : QuotaCall) : Prop :=
  NoRoom maxKeys inner.buckets call.key ∧
    (∀ key start count, inner.buckets.lookup key = some (start, count) →
      start = windowStart (limits.limit call.key) call.now) ∧
    ∃ key start count, inner.buckets.lookup key = some (start, count) ∧
      start + (limits.limit key).windowSeconds ≤ call.now

section Refusal

variable {maxKeys : ℕ} {limits : KeyLimits} {inner : StateInner} {call : QuotaCall}

/-- A call that fails with an accepted reading finds the store full of buckets that start where
its own window starts. -/
theorem StoreInvariant.full_of_error (hinv : StoreInvariant maxKeys limits inner)
    (hreg : ¬ Regressed inner call.now) {error : StateError}
    (h : ((quotaMachine maxKeys limits).step inner call).2 = .error error) :
    NoRoom maxKeys inner.buckets call.key ∧
      ∀ key start count, inner.buckets.lookup key = some (start, count) →
        start = windowStart (limits.limit call.key) call.now := by
  simp only [quotaMachine] at h
  rcases checkAndConsume_cases maxKeys inner call.key (limits.limit call.key) call.now with
    ⟨hregressed, -⟩ | ⟨-, -, heq⟩ | ⟨-, -, hroom, -⟩ | ⟨-, -, -, heq⟩
  · exact absurd hregressed hreg
  · rw [heq] at h
    cases h
  · obtain ⟨hfull, -, hstart⟩ := hinv.full_of_noRoom hroom
    exact ⟨hfull, hstart⟩
  · rw [heq] at h
    cases h

/-- A full store without the caller's key from which the pass drops nothing refuses the call. -/
theorem error_of_nothing_dropped (hreg : ¬ Regressed inner call.now)
    (hfull : NoRoom maxKeys inner.buckets call.key)
    (hstart : ∀ key start count, inner.buckets.lookup key = some (start, count) →
      start = windowStart (limits.limit call.key) call.now) :
    ((quotaMachine maxKeys limits).step inner call).2 = .error .stateUnavailable := by
  have hkept : makeRoom maxKeys inner.buckets call.key
      (windowStart (limits.limit call.key) call.now) = inner.buckets := by
    rw [makeRoom, if_pos hfull]
    refine Finmap.retain_eq_self fun key bucket hlook => ?_
    simpa using hstart key bucket.1 bucket.2 hlook
  have hcount : ¬ (limits.limit call.key).maxCalls ≤
      countInWindow inner.buckets call.key (windowStart (limits.limit call.key) call.now) :=
    fun hexhausted => hfull.1 (mem_of_exhausted hexhausted)
  simp only [quotaMachine, checkAndConsume]
  rw [if_neg hreg, if_neg hcount, hkept, if_pos hfull]

/-- A call with an accepted reading that fails has one of two reasons: the store is really full,
or the pass has kept a bucket that has ended. -/
theorem refusedOnlyWhenFull_iff (hinv : StoreInvariant maxKeys limits inner)
    (hreg : ¬ Regressed inner call.now) :
    RefusedOnlyWhenFull maxKeys limits inner call ↔
      ¬ EndedBucketKept maxKeys limits inner call := by
  constructor
  · rintro hrefused ⟨hfull, hstart, key, start, count, hlook, hended⟩
    obtain ⟨keys, hcard, -, hopen⟩ :=
      hrefused _ (error_of_nothing_dropped hreg hfull hstart)
    -- the open buckets are all the buckets there are
    have hsub : keys ⊆ inner.buckets.keys := by
      intro other hother
      obtain ⟨start', count', hlook', -⟩ := hopen other hother
      exact Finmap.mem_keys.2 (Finmap.mem_of_lookup_eq_some hlook')
    have hall : keys = inner.buckets.keys := by
      refine Finset.eq_of_subset_of_card_le hsub ?_
      rw [hcard]
      exact hinv.size_le
    have hmem : key ∈ keys := by
      rw [hall]
      exact Finmap.mem_keys.2 (Finmap.mem_of_lookup_eq_some hlook)
    obtain ⟨start', count', hlook', -, hnow⟩ := hopen key hmem
    rw [hlook] at hlook'
    obtain ⟨rfl, rfl⟩ := Prod.mk.inj (Option.some.inj hlook')
    omega
  · intro hkept error herror
    obtain ⟨hfull, hstart⟩ := hinv.full_of_error hreg herror
    refine ⟨inner.buckets.keys, le_antisymm hinv.size_le hfull.2, mt Finmap.mem_keys.1 hfull.1,
      fun key hkey => ?_⟩
    obtain ⟨⟨start, count⟩, hlook⟩ := Finmap.mem_iff.1 (Finmap.mem_keys.1 hkey)
    have hbegun : start ≤ call.now := by
      rw [hstart key start count hlook]
      exact windowStart_le _ _
    have hopen : call.now < start + (limits.limit key).windowSeconds :=
      not_le.1 fun hended => hkept ⟨hfull, hstart, key, start, count, hlook, hended⟩
    exact ⟨start, count, hlook, hbegun, hopen⟩

/-- A caller whose window is no longer than any other is refused only when the store is full. -/
theorem not_endedBucketKept_of_shortest
    (h : ∀ key, (limits.limit call.key).windowSeconds ≤ (limits.limit key).windowSeconds) :
    ¬ EndedBucketKept maxKeys limits inner call := by
  rintro ⟨-, hstart, key, start, count, hlook, hended⟩
  have hmod := Nat.mod_lt call.now (limits.window_pos call.key)
  have hle := Nat.mod_le call.now (limits.limit call.key).windowSeconds
  have hshortest := h key
  rw [hstart key start count hlook] at hended
  unfold windowStart at hended
  omega

end Refusal

/-- **Refusals for capacity.**  In every state that calls lead to, a call with an accepted reading
fails only if `maxKeys` other keys hold a bucket whose own window contains the reading, unless the
store is full of buckets that start where the caller's window starts and one of these has ended. -/
theorem refused_only_when_full_iff (maxKeys : ℕ) (limits : KeyLimits) (calls : List QuotaCall)
    (call : QuotaCall)
    (hreg : ¬ Regressed ((quotaMachine maxKeys limits).final .empty calls) call.now) :
    RefusedOnlyWhenFull maxKeys limits ((quotaMachine maxKeys limits).final .empty calls) call ↔
      ¬ EndedBucketKept maxKeys limits ((quotaMachine maxKeys limits).final .empty calls) call :=
  refusedOnlyWhenFull_iff (storeInvariant_final maxKeys limits calls) hreg

/-- A second key in a store of capacity one, while the window of the first is open. -/
theorem refused_only_when_full_iff_sample :
    RefusedOnlyWhenFull 1 twoWindowLimits
        ((quotaMachine 1 twoWindowLimits).final .empty [⟨anonymousKey 1, 0⟩])
        ⟨anonymousKey 0, 30⟩ ↔
      ¬ EndedBucketKept 1 twoWindowLimits
        ((quotaMachine 1 twoWindowLimits).final .empty [⟨anonymousKey 1, 0⟩])
        ⟨anonymousKey 0, 30⟩ :=
  refused_only_when_full_iff 1 twoWindowLimits [⟨anonymousKey 1, 0⟩] ⟨anonymousKey 0, 30⟩
    (by decide)

/-- In a store of capacity one, the bucket of rule 1 for `[0, 60)` starts where the window `[0,
100)` of rule 0 starts, so the call of rule 0 at 61 is refused because of it. The bucket has ended
a second before, yet the eviction pass keeps every bucket with the start that it looks for. -/
theorem refused_for_ended_bucket :
    ¬ ∀ (maxKeys : ℕ) (limits : KeyLimits) (calls : List QuotaCall) (call : QuotaCall),
      1 ≤ maxKeys →
        ¬ Regressed ((quotaMachine maxKeys limits).final .empty calls) call.now →
        RefusedOnlyWhenFull maxKeys limits ((quotaMachine maxKeys limits).final .empty calls)
          call := by
  intro hrefused
  have hkept : EndedBucketKept 1 twoWindowLimits
      ((quotaMachine 1 twoWindowLimits).final .empty [⟨anonymousKey 1, 0⟩])
      ⟨anonymousKey 0, 61⟩ := by
    have hlast : ((quotaMachine 1 twoWindowLimits).final .empty [⟨anonymousKey 1, 0⟩]).buckets =
        Finmap.insert (anonymousKey 1) (0, 1) ∅ := by decide
    refine ⟨by decide, fun key start count hlook => ?_, anonymousKey 1, 0, 1, by decide, by decide⟩
    rw [hlast] at hlook
    by_cases hkey : key = anonymousKey 1
    · subst hkey
      rw [Finmap.lookup_insert] at hlook
      obtain ⟨rfl, rfl⟩ := Prod.mk.inj (Option.some.inj hlook)
      decide
    · rw [Finmap.lookup_insert_of_ne _ hkey, Finmap.lookup_empty] at hlook
      cases hlook
  exact (refusedOnlyWhenFull_iff (storeInvariant_final 1 twoWindowLimits _) (by decide)).1
    (hrefused 1 twoWindowLimits [⟨anonymousKey 1, 0⟩] ⟨anonymousKey 0, 61⟩ le_rfl (by decide))
    hkept

end HpGuardian

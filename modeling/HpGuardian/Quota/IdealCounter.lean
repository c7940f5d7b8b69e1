import HpGuardian.Quota.WindowQuota

/-!
# The store as an ideal counter

The ideal counter keeps the whole history and grants a call iff fewer than `max_calls` earlier
calls of its key were granted in the window of its reading.  The store keeps one pair for each key.
As long as the clock does not regress and the distinct keys fit into the store, it answers like the
ideal counter (`trace_eq_ideal`).

The simulation relation is `Summarises`: in every window that is still open, the pair of a key
accounts for exactly the calls that were granted.  Windows that have ended need not be accounted
for, because no later reading falls into them.  A step that is admitted, by the clock and by the
room, keeps the relation and gives the ideal answer (`Summarises.step`, `Summarises.answer_eq`);
the run theorems follow from the run rules of machines.

A run whose keys fit is free of errors iff its readings are nondecreasing (`noErrors_iff`).  The
ideal counter also keeps keys apart: what one key is answered does not depend on the others
(`idealCounter_step_ofKeys`), so a store shared by several users is, as far as it is ideal, a store
for each of them.
-/

namespace HpGuardian

open Framework

/-- The answer of an ideal counter after a history. -/
def idealAnswer (limits : KeyLimits) (h : QuotaHistory) (call : QuotaCall) : Bool :=
  decide (granted limits h call.key (call.now / (limits.limit call.key).windowSeconds) <
    (limits.limit call.key).maxCalls)

/-- The ideal counter; its state is the history of its run. -/
def idealCounter (limits : KeyLimits) :
    Machine QuotaHistory QuotaCall (Except StateError Bool) where
  step h call :=
    (h ++ [(call, .ok (idealAnswer limits h call))], .ok (idealAnswer limits h call))

/-- The distinct keys of a run. -/
def distinctKeys (calls : List QuotaCall) : Finset RateLimitKey :=
  (calls.map QuotaCall.key).toFinset

/-- The clock did not regress, and the key has a bucket or room for one. Under this condition no
eviction pass is reached, and the store forgets nothing. -/
structure Admits (maxKeys : ℕ) (inner : StateInner) (call : QuotaCall) : Prop where
  clock : ¬ Regressed inner call.now
  room : (insert call.key inner.buckets.keys).card ≤ maxKeys

/-- The store's pairs account exactly for the granted calls of every window that is still open. Of
windows that have ended nothing is said. -/
structure Summarises (limits : KeyLimits) (h : QuotaHistory) (inner : StateInner) : Prop
    extends QuotaInvariant limits h inner where
  covered : ∀ key k, WindowOpen limits inner key k →
    countInWindow inner.buckets key (k * (limits.limit key).windowSeconds) ≤
      granted limits h key k

theorem distinctKeys_cons (call : QuotaCall) (calls : List QuotaCall) :
    distinctKeys (call :: calls) = insert call.key (distinctKeys calls) := by
  simp [distinctKeys]

theorem mem_distinctKeys {calls : List QuotaCall} {key : RateLimitKey} :
    key ∈ distinctKeys calls ↔ ∃ call ∈ calls, call.key = key := by
  simp [distinctKeys]

theorem summarises_empty (limits : KeyLimits) : Summarises limits [] .empty where
  toQuotaInvariant := quotaInvariant_empty limits
  covered := by
    intro key k hopen
    rw [countInWindow_of_notMem (by simp [StateInner.empty])]
    exact Nat.zero_le _

/-! ## One step it admits

A step with an accepted reading and room for its key.  The eviction pass is never reached. -/

section Step

variable {maxKeys : ℕ} {limits : KeyLimits} {h : QuotaHistory} {inner : StateInner}
  {call : QuotaCall}

theorem Admits.not_noRoom (hadmits : Admits maxKeys inner call) :
    ¬ NoRoom maxKeys inner.buckets call.key := by
  rintro ⟨hkey, hfull⟩
  have hcard := Finset.card_insert_of_notMem (mt Finmap.mem_keys.1 hkey)
  have hroom := hadmits.room
  unfold Finmap.size at hfull
  omega

/-- A key that has its bucket or room for one never starts an eviction pass. -/
theorem Admits.makeRoom_eq (hadmits : Admits maxKeys inner call) (start : ℕ) :
    makeRoom maxKeys inner.buckets call.key start = inner.buckets :=
  if_neg hadmits.not_noRoom

/-- A step it admits counts the call in its window iff the quota is not used up. -/
theorem Admits.step_eq (hadmits : Admits maxKeys inner call) :
    (quotaMachine maxKeys limits).step inner call =
      let start := windowStart (limits.limit call.key) call.now
      let count := countInWindow inner.buckets call.key start
      let available := decide (count < (limits.limit call.key).maxCalls)
      (⟨some call.now,
        inner.buckets.insert call.key (start, if available then count + 1 else count)⟩,
        .ok available) := by
  rcases checkAndConsume_cases maxKeys inner call.key (limits.limit call.key) call.now with
    ⟨hreg, -⟩ | ⟨-, hused, heq⟩ | ⟨-, -, hfull, -⟩ | ⟨-, havailable, -, heq⟩
  · exact absurd hreg hadmits.clock
  · simp [quotaMachine, heq, not_lt.2 hused]
  · rw [hadmits.makeRoom_eq] at hfull
    exact absurd hfull hadmits.not_noRoom
  · simp [quotaMachine, heq, havailable, hadmits.makeRoom_eq]

/-- The window of a reading that is not below the last one is open. -/
theorem Admits.windowOpen (hadmits : Admits maxKeys inner call) (key : RateLimitKey) :
    WindowOpen limits inner key (call.now / (limits.limit key).windowSeconds) := by
  intro last hlast
  have hmem := (mem_window_iff (limits.window_pos key) call.now _).2 rfl
  have hle : last ≤ call.now := not_lt.1 (fun hlt => hadmits.clock ⟨last, hlast, hlt⟩)
  omega

/-- In an open window the pair and the history agree. -/
theorem Summarises.count_eq (hsum : Summarises limits h inner) {key : RateLimitKey} {k : ℕ}
    (hopen : WindowOpen limits inner key k) :
    countInWindow inner.buckets key (k * (limits.limit key).windowSeconds) =
      granted limits h key k :=
  le_antisymm (hsum.covered key k hopen) (hsum.counted key k hopen)

/-- A step it admits is answered like the ideal counter answers it. -/
theorem Summarises.answer_eq (hsum : Summarises limits h inner)
    (hadmits : Admits maxKeys inner call) :
    ((quotaMachine maxKeys limits).step inner call).2 = .ok (idealAnswer limits h call) := by
  have hcount := hsum.count_eq (hadmits.windowOpen call.key)
  rw [hadmits.step_eq]
  simp only [windowStart_eq, hcount, idealAnswer]

/-- **The step lemma.**  A step it admits keeps the pairs exact. -/
theorem Summarises.step (hsum : Summarises limits h inner) (hadmits : Admits maxKeys inner call) :
    Summarises limits (h ++ [(call, .ok (idealAnswer limits h call))])
      ((quotaMachine maxKeys limits).step inner call).1 where
  toQuotaInvariant := by
    rw [← hsum.answer_eq hadmits]
    exact quotaInvariant_step hsum.toQuotaInvariant (fun _ hroom => absurd hroom hadmits.not_noRoom)
  covered := by
    intro key k hopen
    have hbefore : WindowOpen limits inner key k := by
      rw [hadmits.step_eq] at hopen
      exact hopen.before hadmits.clock
    have hcount := hsum.count_eq hbefore
    rw [hadmits.step_eq, granted_append, ← hcount]
    by_cases hkey : key = call.key
    · subst hkey
      by_cases hk : call.now / (limits.limit call.key).windowSeconds = k
      · -- the reading's own window: the pair goes up iff the call is granted
        subst hk
        have hanswer : idealAnswer limits h call =
            decide (countInWindow inner.buckets call.key
              (windowStart (limits.limit call.key) call.now) <
                (limits.limit call.key).maxCalls) := by
          rw [windowStart_eq, hcount, idealAnswer]
        rw [← windowStart_eq, countInWindow_insert_self, hanswer]
        by_cases havailable : countInWindow inner.buckets call.key
            (windowStart (limits.limit call.key) call.now) < (limits.limit call.key).maxCalls
        · rw [decide_eq_true havailable, if_pos rfl, if_pos (grantedIn_ok_iff.2 ⟨rfl, rfl⟩)]
        · rw [decide_eq_false havailable, if_neg (by simp)]
          exact Nat.le_add_right _ _
      · -- another window: the rolled-over pair counts for nothing
        have hstart : windowStart (limits.limit call.key) call.now ≠
            k * (limits.limit call.key).windowSeconds := by
          rw [windowStart_eq]
          intro heq
          exact hk (Nat.eq_of_mul_eq_mul_right (limits.window_pos call.key) heq)
        rw [countInWindow_of_lookup (Finmap.lookup_insert _), if_neg hstart]
        exact Nat.zero_le _
    · rw [countInWindow_insert_of_ne _ hkey]
      exact Nat.le_add_right _ _

end Step

/-! ## Runs

The simulation over whole runs, and when a run is admitted. -/

section Run

variable {maxKeys : ℕ} {limits : KeyLimits}

/-- From an exact state on, a run it admits is answered like the ideal counter answers it. -/
theorem Summarises.trace_eq {h : QuotaHistory} {inner : StateInner} {calls : List QuotaCall}
    (hsum : Summarises limits h inner)
    (hadmits : (quotaMachine maxKeys limits).Along (Admits maxKeys) inner calls) :
    (quotaMachine maxKeys limits).trace inner calls = (idealCounter limits).trace h calls := by
  induction calls generalizing h inner with
  | nil => rfl
  | cons call calls ih =>
      have hanswer := hsum.answer_eq hadmits.1
      rw [Machine.trace_cons, Machine.trace_cons, hanswer, ih (hsum.step hadmits.1) hadmits.2]
      exact rfl

/-- **The store refines the ideal counter** on every run from the empty store that it admits. The
ideal counter keeps all of its history and counts in it; the store keeps one pair of numbers for
each key. -/
theorem trace_eq_ideal {calls : List QuotaCall}
    (hadmits : (quotaMachine maxKeys limits).Along (Admits maxKeys) .empty calls) :
    (quotaMachine maxKeys limits).trace .empty calls = (idealCounter limits).trace [] calls :=
  (summarises_empty limits).trace_eq hadmits

/-- The keys a state holds after a step it admits. -/
theorem Admits.keys_step {inner : StateInner} {call : QuotaCall}
    (hadmits : Admits maxKeys inner call) :
    ((quotaMachine maxKeys limits).step inner call).1.buckets.keys =
      insert call.key inner.buckets.keys := by
  rw [hadmits.step_eq]
  exact Finmap.keys_insert _ _ _

theorem Admits.lastNow_step {inner : StateInner} {call : QuotaCall}
    (hadmits : Admits maxKeys inner call) :
    ((quotaMachine maxKeys limits).step inner call).1.lastNow = some call.now := by
  rw [hadmits.step_eq]

/-- A step answers an error iff the clock regressed, if its key has a bucket or room for one. -/
theorem step_ne_error_iff {inner : StateInner} {call : QuotaCall}
    (hroom : (insert call.key inner.buckets.keys).card ≤ maxKeys) :
    ((quotaMachine maxKeys limits).step inner call).2 ≠ .error .stateUnavailable ↔
      Admits maxKeys inner call := by
  constructor
  · intro hok
    refine ⟨fun hreg => hok ?_, hroom⟩
    simp [quotaMachine, checkAndConsume, hreg]
  · intro hadmits
    rw [hadmits.step_eq]
    simp

/-- The room left for the rest of a run after a step it admits. -/
theorem Admits.room_step {inner : StateInner} {call : QuotaCall} {calls : List QuotaCall}
    (hadmits : Admits maxKeys inner call)
    (hkeys : (inner.buckets.keys ∪ distinctKeys (call :: calls)).card ≤ maxKeys) :
    (((quotaMachine maxKeys limits).step inner call).1.buckets.keys ∪
      distinctKeys calls).card ≤ maxKeys := by
  rw [hadmits.keys_step]
  rwa [distinctKeys_cons, Finset.union_insert, ← Finset.insert_union] at hkeys

theorem room_head {inner : StateInner} {call : QuotaCall} {calls : List QuotaCall}
    (hkeys : (inner.buckets.keys ∪ distinctKeys (call :: calls)).card ≤ maxKeys) :
    (insert call.key inner.buckets.keys).card ≤ maxKeys := by
  refine (Finset.card_le_card ?_).trans hkeys
  rw [distinctKeys_cons, Finset.union_insert]
  exact Finset.insert_subset_insert _ Finset.subset_union_left

/-- A run whose keys fit is free of errors iff every step is admitted. -/
theorem noErrors_iff_along {inner : StateInner} {calls : List QuotaCall}
    (hkeys : (inner.buckets.keys ∪ distinctKeys calls).card ≤ maxKeys) :
    (∀ entry ∈ (quotaMachine maxKeys limits).trace inner calls,
        entry.2 ≠ .error .stateUnavailable) ↔
      (quotaMachine maxKeys limits).Along (Admits maxKeys) inner calls := by
  induction calls generalizing inner with
  | nil => simp
  | cons call calls ih =>
      rw [Machine.trace_cons, List.forall_mem_cons, Machine.along_cons,
        step_ne_error_iff (room_head hkeys)]
      refine and_congr_right (fun hadmits => ?_)
      exact ih (hadmits.room_step hkeys)

/-- Every step of a run whose keys fit is admitted iff the readings are nondecreasing and none is
below the last one before the run. -/
theorem along_admits_iff {inner : StateInner} {calls : List QuotaCall}
    (hkeys : (inner.buckets.keys ∪ distinctKeys calls).card ≤ maxKeys) :
    (quotaMachine maxKeys limits).Along (Admits maxKeys) inner calls ↔
      (∀ last ∈ inner.lastNow, ∀ call ∈ calls, last ≤ call.now) ∧
        (calls.map QuotaCall.now).Pairwise (· ≤ ·) := by
  induction calls generalizing inner with
  | nil => simp
  | cons call calls ih =>
      rw [Machine.along_cons, List.map_cons, List.pairwise_cons]
      constructor
      · rintro ⟨hadmits, hrest⟩
        obtain ⟨hlast, hsorted⟩ := (ih (hadmits.room_step hkeys)).1 hrest
        rw [hadmits.lastNow_step] at hlast
        have hlater : ∀ later ∈ calls, call.now ≤ later.now := hlast call.now rfl
        refine ⟨fun last hmem => ?_, ?_, hsorted⟩
        · have hle : last ≤ call.now := not_lt.1 (fun hlt => hadmits.clock ⟨last, hmem, hlt⟩)
          exact List.forall_mem_cons.2 ⟨hle, fun later hl => hle.trans (hlater later hl)⟩
        · simpa using hlater
      · rintro ⟨hlast, hlater, hsorted⟩
        have hadmits : Admits maxKeys inner call := by
          refine ⟨?_, room_head hkeys⟩
          rintro ⟨last, hmem, hlt⟩
          exact absurd (hlast last hmem call (List.mem_cons_self ..)) (not_le.2 hlt)
        refine ⟨hadmits, (ih (hadmits.room_step hkeys)).2 ⟨?_, hsorted⟩⟩
        rw [hadmits.lastNow_step]
        intro last hmem later hl
        obtain rfl := Option.some.inj hmem
        exact hlater later.now (List.mem_map_of_mem hl)

/-- A run from the empty store whose keys fit is free of errors iff its readings are
nondecreasing. -/
theorem noErrors_iff {calls : List QuotaCall} (hkeys : (distinctKeys calls).card ≤ maxKeys) :
    (∀ entry ∈ (quotaMachine maxKeys limits).trace .empty calls,
        entry.2 ≠ .error .stateUnavailable) ↔
      (calls.map QuotaCall.now).Pairwise (· ≤ ·) := by
  have hroom : (StateInner.empty.buckets.keys ∪ distinctKeys calls).card ≤ maxKeys := by
    simpa [StateInner.empty] using hkeys
  rw [noErrors_iff_along hroom, along_admits_iff hroom]
  simp [StateInner.empty]

/-- Every step of a run with nondecreasing readings is admitted, if its keys fit. -/
theorem along_admits {calls : List QuotaCall} (hkeys : (distinctKeys calls).card ≤ maxKeys)
    (hclock : (calls.map QuotaCall.now).Pairwise (· ≤ ·)) :
    (quotaMachine maxKeys limits).Along (Admits maxKeys) .empty calls := by
  have hroom : (StateInner.empty.buckets.keys ∪ distinctKeys calls).card ≤ maxKeys := by
    simpa [StateInner.empty] using hkeys
  exact (along_admits_iff hroom).2 ⟨by simp [StateInner.empty], hclock⟩

/-- The state after a run it admits is exact for the run's history. -/
theorem summarises_final {calls : List QuotaCall}
    (hadmits : (quotaMachine maxKeys limits).Along (Admits maxKeys) .empty calls) :
    Summarises limits ((quotaMachine maxKeys limits).trace .empty calls)
      ((quotaMachine maxKeys limits).final .empty calls) := by
  refine (quotaMachine maxKeys limits).history_invariant (I := Summarises limits)
    (fun h inner call hsum hadmits => ?_) (summarises_empty limits) hadmits
  rw [hsum.answer_eq hadmits]
  exact hsum.step hadmits

end Run

/-! ## The ideal counter keeps keys apart

The history of some keys, taken out of the history of all. -/

section Apart

variable {limits : KeyLimits} {p : RateLimitKey → Bool}

/-- The calls of a history whose key passes a test. -/
def QuotaHistory.ofKeys (p : RateLimitKey → Bool) (h : QuotaHistory) : QuotaHistory :=
  h.filter (fun entry => p entry.1.key)

theorem granted_ofKeys (h : QuotaHistory) {key : RateLimitKey} (hkey : p key = true) (k : ℕ) :
    granted limits (h.ofKeys p) key k = granted limits h key k := by
  unfold granted QuotaHistory.ofKeys
  rw [List.countP_filter]
  refine List.countP_congr (fun entry _ => ?_)
  simp only [Bool.and_eq_true, decide_eq_true_eq, and_iff_left_iff_imp]
  intro hg
  rw [hg.1]
  exact hkey

theorem ofKeys_append (h : QuotaHistory) (entry : QuotaCall × Except StateError Bool) :
    QuotaHistory.ofKeys p (h ++ [entry]) =
      if p entry.1.key then h.ofKeys p ++ [entry] else h.ofKeys p := by
  unfold QuotaHistory.ofKeys
  rw [List.filter_append, List.filter_singleton]
  cases p entry.1.key with
  | true => rfl
  | false => exact List.append_nil _

/-- A call of one of the keys is answered as if the other keys had never been used. -/
theorem idealCounter_step_ofKeys (h : QuotaHistory) {call : QuotaCall} (hp : p call.key = true) :
    (idealCounter limits).step (h.ofKeys p) call =
      (((idealCounter limits).step h call).1.ofKeys p, ((idealCounter limits).step h call).2) := by
  have hanswer : idealAnswer limits (h.ofKeys p) call = idealAnswer limits h call := by
    rw [idealAnswer, granted_ofKeys h hp, idealAnswer]
  simp only [idealCounter, hanswer, ofKeys_append, hp, if_true]

/-- A call of another key leaves the keys' history as it is. -/
theorem idealCounter_step_otherKey (h : QuotaHistory) {call : QuotaCall}
    (hp : p call.key = false) :
    ((idealCounter limits).step h call).1.ofKeys p = h.ofKeys p := by
  simp only [idealCounter, ofKeys_append, hp]
  exact rfl

end Apart

end HpGuardian

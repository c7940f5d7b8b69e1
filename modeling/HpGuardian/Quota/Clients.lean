import HpGuardian.Quota.PolicyStore

/-!
# Concurrent clients of one policy store

A `resolve` that selects a limited rule takes two steps: it reads the clock, and then the quota
store's locked section runs with that reading.  Other clients may take steps in between, so
readings can reach the store in another order than they were taken in; the store then takes the
older reading for a clock that moved backwards (`advancing_clock_reported_as_regressed`).

The clients are a machine whose steps are these two, for any number of clients in any interleaving;
a client starts its next call when the last one has ended.  The state keeps the calls that have
read the clock and not yet reached the store.

No call fails iff the readings reach the store in nondecreasing order
(`concurrent_resolve_available_iff`), which is more than the clock's readings being nondecreasing
in the order they are taken in.  What the store is asked in a run is a sequence of calls, in the
order of their entries into the locked section, so the theorem about the store alone applies.
-/

namespace HpGuardian

open Framework

/-- A step of a client. Between the two steps of a call those of other clients may come, which is
where a later reading overtakes an earlier one. -/
inductive ClientStep (Client : Type*) where
  /-- The client calls `resolve`, which reads the clock if a limited rule is selected. -/
  | start (client : Client) (r : Resolution)
  /-- The client's pending call enters the locked section. -/
  | consume (client : Client)

/-- The quota store and the calls that have read the clock but not reached it. A client has at most
one such call, since it waits for its answer. -/
structure ClientsState (Client : Type*) where
  inner : StateInner
  pending : Client → Option Resolution

/-- An empty quota store without pending calls. -/
def ClientsState.empty (Client : Type*) : ClientsState Client := ⟨.empty, fun _ => none⟩

/-- A client starts a call when its last one has ended, and enters the locked section with a
pending call. -/
def ClientStep.Enabled {Client : Type*} (state : ClientsState Client) :
    ClientStep Client → Prop
  | .start client _ => (state.pending client).isSome = false
  | .consume client => (state.pending client).isSome = true

instance {Client : Type*} (state : ClientsState Client) (step : ClientStep Client) :
    Decidable (step.Enabled state) :=
  match step with
  | .start client _ => inferInstanceAs (Decidable ((state.pending client).isSome = false))
  | .consume client => inferInstanceAs (Decidable ((state.pending client).isSome = true))

namespace RateLimitedPolicyStore

variable {rt : YamlRuntime} (store : RateLimitedPolicyStore rt) {Client : Type*}
  [DecidableEq Client]

/-- The clients of a policy store as a machine; a step that ends a call answers with its result. -/
def clients (maxKeys : ℕ) :
    Machine (ClientsState Client) (ClientStep Client) (Option (Except StateError Decision)) where
  step state step :=
    match step with
    | .start client r =>
        if (store.limitedRule r).isSome then
          ({ state with pending := Function.update state.pending client (some r) }, none)
        else
          (state, some (.ok (store.decision r)))
    | .consume client =>
        match state.pending client with
        | none => (state, none)
        | some r =>
            let (inner, result) := store.resolve maxKeys state.inner r
            (⟨inner, Function.update state.pending client none⟩, some result)

/-- The clock readings of a run, in the order they are taken in. -/
def readings (run : List (ClientStep Client)) : List ℕ :=
  run.filterMap (fun step =>
    match step with
    | .start _ r => (store.quotaCall r).map QuotaCall.now
    | .consume _ => none)

/-- The calls that enter the locked section in a run, in that order. -/
def entering : (Client → Option Resolution) → List (ClientStep Client) → List Resolution
  | _, [] => []
  | pending, .start client r :: run =>
      if (store.limitedRule r).isSome then
        entering (Function.update pending client (some r)) run
      else
        entering pending run
  | pending, .consume client :: run =>
      match pending client with
      | none => entering pending run
      | some r => r :: entering (Function.update pending client none) run

/-- What the quota store is asked in a run without calls pending before it. -/
def consumed (run : List (ClientStep Client)) : List QuotaCall :=
  (store.entering (fun _ => none) run).filterMap store.quotaCall

variable {store}

/-- No client gets an error iff the calls, taken one after the other as they enter the locked
section, get none. -/
theorem clients_noErrors_iff (maxKeys : ℕ) (inner : StateInner)
    (pending : Client → Option Resolution) (run : List (ClientStep Client)) :
    (∀ entry ∈ (store.clients maxKeys).trace ⟨inner, pending⟩ run,
        entry.2 ≠ some (.error .stateUnavailable)) ↔
      ∀ entry ∈ (store.resolving maxKeys).trace inner (store.entering pending run),
        entry.2 ≠ .error .stateUnavailable := by
  induction run generalizing inner pending with
  | nil => simp [entering]
  | cons step run ih =>
      rw [Machine.trace_cons, List.forall_mem_cons]
      cases step with
      | start client r =>
          by_cases hlimited : (store.limitedRule r).isSome = true
          · simp only [clients, entering, hlimited, if_true]
            exact (and_iff_right (by simp)).trans (ih _ _)
          · simp only [clients, entering, hlimited]
            exact (and_iff_right (by simp)).trans (ih _ _)
      | consume client =>
          cases hpending : pending client with
          | none =>
              simp only [clients, entering, hpending]
              exact (and_iff_right (by simp)).trans (ih _ _)
          | some r =>
              simp only [clients, entering, hpending, Machine.trace_cons, List.forall_mem_cons]
              exact and_congr (by simp [resolving]) (ih _ _)

/-- A run of the resolver is free of errors iff what it asks the quota store is. -/
theorem resolving_noErrors_iff {limits : KeyLimits} (hlimits : store.Governs limits)
    (maxKeys : ℕ) (inner : StateInner) (run : List Resolution) :
    (∀ entry ∈ (store.resolving maxKeys).trace inner run,
        entry.2 ≠ .error .stateUnavailable) ↔
      ∀ entry ∈ (quotaMachine maxKeys limits).trace inner (run.filterMap store.quotaCall),
        entry.2 ≠ .error .stateUnavailable := by
  rw [resolving_eq hlimits]
  exact Machine.forall_trace_delegate _
    (P := fun result : Except StateError Decision => result ≠ .error .stateUnavailable)
    (Q := fun asked : Except StateError Bool => asked ≠ .error .stateUnavailable)
    (fun r => by simp [answer]) (fun r asked => answer_ne_error_iff r asked) _ _

/-- **Availability under concurrency.**  In an interleaving of any number of clients whose keys
fit into the quota store, no call fails iff the readings reach the store in nondecreasing
order. -/
theorem concurrent_resolve_available_iff (store : RateLimitedPolicyStore rt) {maxKeys : ℕ}
    {run : List (ClientStep Client)} (hkeys : (distinctKeys (store.consumed run)).card ≤ maxKeys) :
    (∀ entry ∈ (store.clients maxKeys).trace (.empty Client) run,
        entry.2 ≠ some (.error .stateUnavailable)) ↔
      ((store.consumed run).map QuotaCall.now).Pairwise (· ≤ ·) := by
  have hlimits : store.Governs (familyLimits fun _ : Unit => store) :=
    familyLimits_governs (fun _ => store) (Function.injective_of_subsingleton _) ()
  calc (∀ entry ∈ (store.clients maxKeys).trace (.empty Client) run,
        entry.2 ≠ some (.error .stateUnavailable))
      ↔ ∀ entry ∈ (store.resolving maxKeys).trace .empty (store.entering (fun _ => none) run),
          entry.2 ≠ .error .stateUnavailable := clients_noErrors_iff _ _ _ _
    _ ↔ ∀ entry ∈ (quotaMachine maxKeys (familyLimits fun _ : Unit => store)).trace .empty
          (store.consumed run), entry.2 ≠ .error .stateUnavailable :=
        resolving_noErrors_iff hlimits _ _ _
    _ ↔ ((store.consumed run).map QuotaCall.now).Pairwise (· ≤ ·) := noErrors_iff hkeys

/-- Two clients whose readings reach the store in the order they were taken in. -/
theorem concurrent_resolve_available_search :
    let run : List (ClientStep ℕ) :=
      [.start 0 (searchAt 5), .start 1 (searchAt 6), .consume 0, .consume 1]
    (∀ entry ∈ ((searchStore "policy").clients 1).trace (.empty ℕ) run,
        entry.2 ≠ some (.error .stateUnavailable)) ↔
      (((searchStore "policy").consumed run).map QuotaCall.now).Pairwise (· ≤ ·) :=
  concurrent_resolve_available_iff (searchStore "policy") (by decide +kernel)

/-- The clock advances from 5 to 6 between two reads, and the later reading is consumed first. -/
def overtakingClients : List (ClientStep ℕ) :=
  [.start 0 (searchAt 5), .start 1 (searchAt 6), .consume 1, .consume 0]

/-- A clock that never moves backwards is reported as regressed: the second call reads a later time
than the first, but reaches the store before it. -/
theorem advancing_clock_reported_as_regressed :
    ¬ ∀ (store : RateLimitedPolicyStore plainRuntime) (maxKeys : ℕ) (run : List (ClientStep ℕ)),
      (store.clients maxKeys).Along (fun state step => step.Enabled state) (.empty ℕ) run →
      (store.readings run).Pairwise (· ≤ ·) →
      (distinctKeys (store.consumed run)).card ≤ maxKeys →
        ∀ entry ∈ (store.clients maxKeys).trace (.empty ℕ) run,
          entry.2 ≠ some (.error .stateUnavailable) := by
  intro havailable
  have hok := havailable (searchStore "policy") 1 overtakingClients (by decide +kernel)
    (by decide +kernel) (by decide +kernel)
  -- client 1 is answered, and client 0, whose reading is older, gets an error
  have hanswers : (((searchStore "policy").clients 1).trace (.empty ℕ) overtakingClients).map
      Prod.snd = [none, none, some (.ok ⟨.allow, [0]⟩), some (.error .stateUnavailable)] := rfl
  have hfailed : some (.error .stateUnavailable) ∈
      (((searchStore "policy").clients 1).trace (.empty ℕ) overtakingClients).map Prod.snd := by
    rw [hanswers]
    simp
  obtain ⟨entry, hentry, heq⟩ := List.mem_map.1 hfailed
  exact hok entry hentry heq

end RateLimitedPolicyStore

end HpGuardian

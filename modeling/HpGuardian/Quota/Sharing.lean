import HpGuardian.Quota.Clients

/-!
# Policies that share a quota store

Keys carry the digest of their policy, so the buckets of different policies are apart.  The last
accepted reading is not: it belongs to the whole store, while each policy's default clock counts
from the policy's own construction.  A policy built later reads smaller numbers, and its calls are
refused once an older policy has been answered (`sharing_disturbs`).

Every policy gets the results of a private store, none of them an error, iff the readings of all
policies together are nondecreasing (`shared_store_undisturbed_iff`).  The readings are those that
the store is asked with, in the order of the calls; the condition is about them and not about the
times at which the calls were made.

Both directions go through the ideal counter.  A shared run without errors is one of the ideal
counter, which keeps the keys of different policies apart, so each policy gets from it what it gets
from a counter of its own (`ideal_results_eq`); and a private run is the ideal one for the same
reason.
-/

namespace HpGuardian

open Framework

/-- A call of `resolve` on one of several policy stores, at a real time in nanoseconds. Each store
reads this time on a clock of its own, which starts when the store is built. -/
structure TimedCall (ι : Type*) where
  policy : ι
  call : PolicyCall
  utcNow : Instant
  time : ℕ

/-- The default clock of `with_policy`: the whole seconds since the policy store was built. -/
def secondsSince (built time : ℕ) : ℕ := (time - built) / 10 ^ 9

section Sharing

variable {rt : YamlRuntime} {ι : Type*} (stores : ι → RateLimitedPolicyStore rt)
  (built : ι → ℕ) (maxKeys : ℕ)

/-- What a call reads. -/
def TimedCall.resolution (c : TimedCall ι) : Resolution :=
  ⟨c.call, c.utcNow, secondsSince (built c.policy) c.time⟩

/-- Several policy stores over one quota store. -/
def sharing : Machine StateInner (TimedCall ι) (Except StateError Decision) where
  step inner c := (stores c.policy).resolve maxKeys inner (c.resolution built)

/-- What a call asks the quota store. -/
def asks (c : TimedCall ι) : Option QuotaCall :=
  (stores c.policy).quotaCall (c.resolution built)

/-- What one policy store reads in a call, if the call is its own. -/
def ownResolution [DecidableEq ι] (i : ι) (c : TimedCall ι) : Option Resolution :=
  if c.policy = i then some (c.resolution built) else none

/-- The results of one policy store in a shared run. -/
def sharedResults [DecidableEq ι] (run : List (TimedCall ι)) (i : ι) :
    List (Except StateError Decision) :=
  ((sharing stores built maxKeys).trace .empty run).filterMap
    (fun entry => (ownResolution built i entry.1).map (fun _ => entry.2))

/-- The results of the same calls over a quota store of the policy's own. -/
def privateResults [DecidableEq ι] (run : List (TimedCall ι)) (i : ι) :
    List (Except StateError Decision) :=
  (((stores i).resolving maxKeys).trace .empty
    (run.filterMap (ownResolution built i))).map Prod.snd

variable {stores} {built} {maxKeys}

theorem quotaCall_now {store : RateLimitedPolicyStore rt} {r : Resolution} {call : QuotaCall}
    (h : store.quotaCall r = some call) :
    call.key.policyDigest = store.policyDigest ∧ call.now = r.nowSeconds := by
  obtain ⟨rule, -, rfl⟩ := Option.map_eq_some_iff.1 h
  exact ⟨rfl, rfl⟩

/-- Several policy stores are the quota store behind a front. -/
theorem sharing_eq {limits : KeyLimits} (hlimits : ∀ i, (stores i).Governs limits) :
    sharing stores built maxKeys =
      (quotaMachine maxKeys limits).delegate (asks stores built)
        (fun c => (stores c.policy).answer (c.resolution built)) := by
  have hstep : (sharing stores built maxKeys).step =
      ((quotaMachine maxKeys limits).delegate (asks stores built)
        (fun c => (stores c.policy).answer (c.resolution built))).step := by
    funext inner c
    exact congrArg (fun machine => machine.step inner (c.resolution built))
      (RateLimitedPolicyStore.resolving_eq (hlimits c.policy) maxKeys)
  exact congrArg Machine.mk hstep

/-- A shared run is free of errors iff what it asks the quota store is. -/
theorem sharing_noErrors_iff {limits : KeyLimits} (hlimits : ∀ i, (stores i).Governs limits)
    (run : List (TimedCall ι)) :
    (∀ entry ∈ (sharing stores built maxKeys).trace .empty run,
        entry.2 ≠ .error .stateUnavailable) ↔
      ∀ entry ∈ (quotaMachine maxKeys limits).trace .empty (run.filterMap (asks stores built)),
        entry.2 ≠ .error .stateUnavailable := by
  rw [sharing_eq hlimits]
  refine Machine.forall_trace_delegate _
    (P := fun result : Except StateError Decision => result ≠ .error .stateUnavailable)
    (Q := fun asked : Except StateError Bool => asked ≠ .error .stateUnavailable)
    (fun c => by simp [RateLimitedPolicyStore.answer])
    (fun c asked => RateLimitedPolicyStore.answer_ne_error_iff _ asked) _ _

variable [DecidableEq ι]

/-- A result of a shared run is one of some policy. -/
theorem forall_sharedResults_iff {run : List (TimedCall ι)}
    {P : Except StateError Decision → Prop} :
    (∀ i, ∀ result ∈ sharedResults stores built maxKeys run i, P result) ↔
      ∀ entry ∈ (sharing stores built maxKeys).trace .empty run, P entry.2 := by
  constructor
  · intro h entry hentry
    refine h entry.1.policy entry.2 (List.mem_filterMap.2 ⟨entry, hentry, ?_⟩)
    simp [ownResolution]
  · intro h i result hresult
    obtain ⟨entry, hentry, hown⟩ := List.mem_filterMap.1 hresult
    obtain ⟨-, -, rfl⟩ := Option.map_eq_some_iff.1 hown
    exact h entry hentry

/-- What a policy alone asks the quota store is a part of what all of them ask. -/
theorem own_asks_sublist (run : List (TimedCall ι)) (i : ι) :
    ((run.filterMap (ownResolution built i)).filterMap (stores i).quotaCall).Sublist
      (run.filterMap (asks stores built)) := by
  induction run with
  | nil => exact List.Sublist.refl _
  | cons c run ih =>
      by_cases hpolicy : c.policy = i
      · subst hpolicy
        have hown : ownResolution built c.policy c = some (c.resolution built) := if_pos rfl
        rw [List.filterMap_cons_some hown]
        cases hask : (stores c.policy).quotaCall (c.resolution built) with
        | none =>
            have hasks : asks stores built c = none := hask
            rw [List.filterMap_cons_none hask, List.filterMap_cons_none hasks]
            exact ih
        | some call =>
            have hasks : asks stores built c = some call := hask
            rw [List.filterMap_cons_some hask, List.filterMap_cons_some hasks]
            exact ih.cons_cons call
      · have hown : ownResolution built i c = none := if_neg hpolicy
        rw [List.filterMap_cons_none hown]
        cases hask : asks stores built c with
        | none =>
            rw [List.filterMap_cons_none hask]
            exact ih
        | some call =>
            rw [List.filterMap_cons_some hask]
            exact ih.cons call

/-- Over the ideal counter every policy gets the results of a run of its own. -/
theorem ideal_results_eq {limits : KeyLimits}
    (hdigest : Function.Injective (fun i => (stores i).policyDigest)) (run : List (TimedCall ι))
    (i : ι) :
    (((idealCounter limits).delegate (asks stores built)
        (fun c => (stores c.policy).answer (c.resolution built))).trace [] run).filterMap
        (fun entry => (ownResolution built i entry.1).map (fun _ => entry.2)) =
      ((((idealCounter limits).delegate (stores i).quotaCall (stores i).answer)).trace []
        (run.filterMap (ownResolution built i))).map Prod.snd := by
  refine Machine.project_trace _ (R := fun shared own =>
      own = QuotaHistory.ofKeys (fun key => key.policyDigest == (stores i).policyDigest) shared)
    ?_ ?_ rfl run
  · rintro shared own c r hown rfl
    unfold ownResolution at hown
    split_ifs at hown with hpolicy
    subst hpolicy
    obtain rfl := Option.some.inj hown
    cases hask : (stores c.policy).quotaCall (c.resolution built) with
    | none =>
        rw [Machine.delegate_step_none _ hask, Machine.delegate_step_none (k := c) _ hask]
        exact ⟨rfl, rfl⟩
    | some call =>
        have hkey : (call.key.policyDigest == (stores c.policy).policyDigest) = true := by
          simp [(quotaCall_now hask).1]
        rw [Machine.delegate_step_some _ hask, Machine.delegate_step_some (k := c) _ hask,
          idealCounter_step_ofKeys _ hkey]
        exact ⟨rfl, rfl⟩
  · rintro shared own c hother rfl
    unfold ownResolution at hother
    split_ifs at hother with hpolicy
    cases hask : asks stores built c with
    | none =>
        rw [Machine.delegate_step_none _ hask]
    | some call =>
        have hkey : (call.key.policyDigest == (stores i).policyDigest) = false := by
          rw [(quotaCall_now hask).1, beq_eq_false_iff_ne]
          exact fun heq => hpolicy (hdigest heq)
        rw [Machine.delegate_step_some _ hask, idealCounter_step_otherKey _ hkey]

/-- The results of a policy over a quota store of its own are those over the ideal counter. -/
theorem privateResults_eq_ideal {limits : KeyLimits} {i : ι} (hlimits : (stores i).Governs limits)
    {run : List (TimedCall ι)}
    (hkeys : (distinctKeys (run.filterMap (asks stores built))).card ≤ maxKeys)
    (hclock : ((run.filterMap (asks stores built)).map QuotaCall.now).Pairwise (· ≤ ·)) :
    privateResults stores built maxKeys run i =
      ((((idealCounter limits).delegate (stores i).quotaCall (stores i).answer)).trace []
        (run.filterMap (ownResolution built i))).map Prod.snd := by
  have hsub := @own_asks_sublist _ _ stores built _ run i
  have hown : (distinctKeys ((run.filterMap (ownResolution built i)).filterMap
      (stores i).quotaCall)).card ≤ maxKeys := by
    refine (Finset.card_le_card (fun key hkey => ?_)).trans hkeys
    obtain ⟨call, hcall, heq⟩ := mem_distinctKeys.1 hkey
    exact mem_distinctKeys.2 ⟨call, hsub.subset hcall, heq⟩
  unfold privateResults
  rw [RateLimitedPolicyStore.resolving_eq hlimits]
  exact congrArg _ (Machine.trace_delegate_congr _
    (trace_eq_ideal (along_admits hown (hclock.sublist (hsub.map _)))))

/-- **Policies over one quota store.**  With different digests and keys that fit, every policy gets
the results of a private quota store and none of them an error, iff the readings of all policies
together, in the order of the calls, are nondecreasing. -/
theorem shared_store_undisturbed_iff
    (hdigest : Function.Injective (fun i => (stores i).policyDigest))
    {run : List (TimedCall ι)}
    (hkeys : (distinctKeys (run.filterMap (asks stores built))).card ≤ maxKeys) :
    ((∀ i, sharedResults stores built maxKeys run i =
        privateResults stores built maxKeys run i) ∧
      ∀ i, ∀ result ∈ sharedResults stores built maxKeys run i,
        result ≠ .error .stateUnavailable) ↔
      ((run.filterMap (asks stores built)).map QuotaCall.now).Pairwise (· ≤ ·) := by
  have hlimits := familyLimits_governs stores hdigest
  have herrors : (∀ i, ∀ result ∈ sharedResults stores built maxKeys run i,
      result ≠ .error .stateUnavailable) ↔
        ((run.filterMap (asks stores built)).map QuotaCall.now).Pairwise (· ≤ ·) := by
    rw [forall_sharedResults_iff, sharing_noErrors_iff hlimits, noErrors_iff hkeys]
  constructor
  · rintro ⟨-, hnone⟩
    exact herrors.1 hnone
  · intro hclock
    refine ⟨fun i => ?_, herrors.2 hclock⟩
    rw [privateResults_eq_ideal (hlimits i) hkeys hclock, ← ideal_results_eq hdigest]
    unfold sharedResults
    rw [sharing_eq hlimits]
    exact congrArg _ (Machine.trace_delegate_congr _
      (trace_eq_ideal (along_admits hkeys hclock)))

end Sharing

/-! ## A policy that is built later

Two policies, one of them built 100 seconds after the other. -/

/-- Two policies with one limited rule each. -/
def olderAndNewer (newer : Bool) : RateLimitedPolicyStore plainRuntime :=
  searchStore (if newer then "newer" else "older")

/-- The newer policy is built 100 seconds after the older one. -/
def buildTimes (newer : Bool) : ℕ := if newer then 100 * 10 ^ 9 else 0

/-- A search under one of the policies, at a time in seconds. -/
def searchUnder (newer : Bool) (seconds : ℕ) : TimedCall Bool :=
  ⟨newer, ⟨none, some "search", [], none, ∅⟩, 0, seconds * 10 ^ 9⟩

theorem olderAndNewer_digests :
    Function.Injective (fun newer => (olderAndNewer newer).policyDigest) := by
  intro newer newer' h
  cases newer <;> cases newer' <;> first | rfl | exact absurd h (by decide)

/-- If the newer policy is asked first and the older one later, both are undisturbed. -/
theorem shared_store_undisturbed_search :
    sharedResults olderAndNewer buildTimes 2 [searchUnder true 105, searchUnder false 106] true =
      privateResults olderAndNewer buildTimes 2 [searchUnder true 105, searchUnder false 106]
        true :=
  ((shared_store_undisturbed_iff olderAndNewer_digests (by decide +kernel)).2
    (by decide +kernel)).1 true

/-- The older policy is asked at second 110, so the newer one's reading 11 is refused at second
111. Each policy measures from its own start, while the store compares the readings of both. -/
theorem sharing_disturbs :
    ¬ ∀ (stores : Bool → RateLimitedPolicyStore plainRuntime) (built : Bool → ℕ) (maxKeys : ℕ)
      (run : List (TimedCall Bool)),
      Function.Injective (fun i => (stores i).policyDigest) →
      (run.map TimedCall.time).Pairwise (· ≤ ·) →
      (∀ c ∈ run, built c.policy ≤ c.time) →
      (distinctKeys (run.filterMap (asks stores built))).card ≤ maxKeys →
        ∀ i, sharedResults stores built maxKeys run i =
          privateResults stores built maxKeys run i := by
  intro hundisturbed
  have hsame := hundisturbed olderAndNewer buildTimes 2
    [searchUnder false 110, searchUnder true 111] olderAndNewer_digests (by decide +kernel)
    (by decide +kernel) (by decide +kernel) true
  have hshared : sharedResults olderAndNewer buildTimes 2
      [searchUnder false 110, searchUnder true 111] true = [.error .stateUnavailable] := rfl
  have hprivate : privateResults olderAndNewer buildTimes 2
      [searchUnder false 110, searchUnder true 111] true = [.ok ⟨.allow, [0]⟩] := rfl
  rw [hshared, hprivate] at hsame
  simp at hsame

end HpGuardian

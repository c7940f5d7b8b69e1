import HpGuardian.Quota.IdealCounter
import HpGuardian.Policy.Accepted

/-!
# Rate-limited resolution (`src/state.rs`)

`RateLimitedPolicyStore::resolve` runs the pure engine and puts the call to the quota store iff the
engine selected an allow rule with a rate limit.  A call is counted under a key made of the
policy's digest, the rule's index and the identity of the caller.

A run of one policy store is therefore a run of the quota store behind a front (`resolving_eq`):
the front asks the store about some of its calls and makes a decision of the answer.  As long as
the keys fit and the readings are nondecreasing, the store behind it answers like the ideal
counter, and the decisions can be described without the store: a limited call is allowed iff fewer
than the limit of the earlier calls under the same quota were allowed (`resolve_counts_exactly`).

The engine is one that was accepted from a document, which is what its limits and the indices of
its rules are known from.  Several policies may share a store, so their limits are put together
into those of a family (`familyLimits`), told apart by the digests.
-/

namespace HpGuardian

open Framework

/-! ## The resolver

`resolve`, with the locked state of its quota store as an argument. -/

/-- A stateful resolver.  The quota store and the two clocks are inputs of each call; the engine
is one that `parse_rate_limited` accepted. -/
structure RateLimitedPolicyStore (rt : YamlRuntime) where
  engine : Engine
  policyDigest : String
  accepted : ∃ policy, parseRateLimited rt policy = .ok engine

/-- `RateLimitedPolicyStore::with_clock`. -/
def RateLimitedPolicyStore.withClock (rt : YamlRuntime) (decode : String → Except String Yaml)
    (sha256 : String → String) (policyText : String) :
    Except PolicyError (RateLimitedPolicyStore rt) :=
  match decode policyText with
  | .error error => .error (.invalidYaml error)
  | .ok policy =>
      match h : parseRateLimited rt policy with
      | .ok engine => .ok ⟨engine, sha256 policyText, policy, h⟩
      | .error error => .error error

/-- What one call of `resolve` reads: the call, `Utc::now()`, and the monotonic clock, which is
read only if the quota store is asked. -/
structure Resolution where
  call : PolicyCall
  utcNow : Instant
  nowSeconds : ℕ

namespace RateLimitedPolicyStore

variable {rt : YamlRuntime} (store : RateLimitedPolicyStore rt)

/-- The decision of the pure engine. -/
def decision (r : Resolution) : Decision :=
  (store.engine.resolveCallWithSelectedRuleAt r.call r.utcNow).1

/-- The selected rule and its limit, if an allow rule with a rate limit was selected. -/
def limitedRule (r : Resolution) : Option (ℕ × RateLimit) :=
  match (store.engine.resolveCallWithSelectedRuleAt r.call r.utcNow).2 with
  | none => none
  | some ruleIndex =>
      if (store.decision r).action ≠ .allow then none
      else (store.engine.rateLimits.lookup ruleIndex).map (fun limit => (ruleIndex, limit))

/-- The key of a rule for a call. -/
def rateLimitKey (call : PolicyCall) (ruleIndex : ℕ) : RateLimitKey where
  policyDigest := store.policyDigest
  ruleIndex := ruleIndex
  agent := call.agent
  user := call.user
  tool := call.tool

/-- The decision once the quota store has answered. -/
def afterConsume (decision : Decision) (consumed : Except StateError Bool) :
    Except StateError Decision :=
  match consumed with
  | .ok true => .ok decision
  | .ok false => .ok ⟨.throttle, decision.matchedRules⟩
  | .error error => .error error

/-- `RateLimitedPolicyStore::resolve` over a quota store of capacity `maxKeys`. -/
def resolve (maxKeys : ℕ) (inner : StateInner) (r : Resolution) :
    StateInner × Except StateError Decision :=
  match store.limitedRule r with
  | none => (inner, .ok (store.decision r))
  | some (ruleIndex, limit) =>
      let (inner, consumed) :=
        checkAndConsume maxKeys inner (store.rateLimitKey r.call ruleIndex) limit r.nowSeconds
      (inner, afterConsume (store.decision r) consumed)

/-- The resolver as a machine over the locked state of its quota store. -/
def resolving (maxKeys : ℕ) : Machine StateInner Resolution (Except StateError Decision) where
  step inner r := store.resolve maxKeys inner r

/-! ## The quota store behind the resolver

What is asked of the store, and what is made of its answer. -/

/-- What a call asks the quota store. -/
def quotaCall (r : Resolution) : Option QuotaCall :=
  (store.limitedRule r).map (fun rule => ⟨store.rateLimitKey r.call rule.1, r.nowSeconds⟩)

/-- The decision of a call from the quota store's answer, if it was asked. -/
def answer (r : Resolution) (consumed : Option (Except StateError Bool)) :
    Except StateError Decision :=
  match consumed with
  | none => .ok (store.decision r)
  | some consumed => afterConsume (store.decision r) consumed

/-- The limits are those of the policy's rules. A key names its rule, so that one table of limits
serves all subjects of the policy. -/
def Governs (limits : KeyLimits) : Prop :=
  ∀ ruleIndex limit call, store.engine.rateLimits.lookup ruleIndex = some limit →
    limits.limit (store.rateLimitKey call ruleIndex) = limit

variable {store}

theorem limitedRule_eq_some {r : Resolution} {ruleIndex : ℕ} {limit : RateLimit}
    (h : store.limitedRule r = some (ruleIndex, limit)) :
    (store.decision r).action = .allow ∧
      (store.engine.resolveCallWithSelectedRuleAt r.call r.utcNow).2 = some ruleIndex ∧
      store.engine.rateLimits.lookup ruleIndex = some limit := by
  unfold limitedRule at h
  split at h
  · cases h
  · rename_i index hindex
    split_ifs at h with hallow
    obtain ⟨found, hfound, hpair⟩ := Option.map_eq_some_iff.1 h
    obtain ⟨rfl, rfl⟩ := Prod.mk.inj hpair
    exact ⟨not_not.1 hallow, hindex, hfound⟩

/-- Unless an allow rule with a limit is selected, the pure engine has nothing to throttle. -/
theorem decision_of_limitedRule_none {r : Resolution} (h : store.limitedRule r = none) :
    store.engine.resolveCallAt r.call r.utcNow = store.decision r := by
  unfold Engine.resolveCallAt decision
  unfold limitedRule decision at h
  rcases hres : store.engine.resolveCallWithSelectedRuleAt r.call r.utcNow with ⟨d, selected⟩
  rw [hres] at h
  cases selected with
  | none => rfl
  | some index =>
      dsimp only at h ⊢
      split_ifs at h with hallow
      · simp [hallow]
      · have hlookup : store.engine.rateLimits.lookup index = none := by
          simpa using h
        have hmem : index ∉ store.engine.rateLimits :=
          Finmap.lookup_eq_none.1 hlookup
        simp [hmem]

/-- The pure engine lists the same rules, whatever it does about a limit. -/
theorem decision_matchedRules (r : Resolution) :
    (store.decision r).matchedRules =
      (store.engine.resolveCallAt r.call r.utcNow).matchedRules := by
  unfold Engine.resolveCallAt decision
  rcases store.engine.resolveCallWithSelectedRuleAt r.call r.utcNow with ⟨d, selected⟩
  dsimp only
  split <;> rfl

/-- A call gets an error iff the quota store was asked and failed. -/
theorem answer_ne_error_iff (r : Resolution) (consumed : Except StateError Bool) :
    store.answer r (some consumed) ≠ .error .stateUnavailable ↔
      consumed ≠ .error .stateUnavailable := by
  rcases consumed with error | granted
  · simp [answer, afterConsume]
  · cases granted <;> simp [answer, afterConsume]

/-- A call that selects a limited rule passes on the quota store's answer. -/
theorem resolve_of_limitedRule {limits : KeyLimits} (hlimits : store.Governs limits)
    {maxKeys : ℕ} {inner : StateInner} {r : Resolution} {ruleIndex : ℕ} {limit : RateLimit}
    (hrule : store.limitedRule r = some (ruleIndex, limit)) :
    (store.resolve maxKeys inner r).2 =
      afterConsume (store.decision r) ((quotaMachine maxKeys limits).step inner
        ⟨store.rateLimitKey r.call ruleIndex, r.nowSeconds⟩).2 := by
  have hlimit := hlimits ruleIndex limit r.call (limitedRule_eq_some hrule).2.2
  simp [resolve, hrule, quotaMachine, hlimit]

/-- The resolver is the quota store behind a front. -/
theorem resolving_eq {limits : KeyLimits} (hlimits : store.Governs limits) (maxKeys : ℕ) :
    store.resolving maxKeys =
      (quotaMachine maxKeys limits).delegate store.quotaCall store.answer := by
  have hstep : (store.resolving maxKeys).step =
      ((quotaMachine maxKeys limits).delegate store.quotaCall store.answer).step := by
    funext inner r
    cases hrule : store.limitedRule r with
    | none =>
        rw [Machine.delegate_step_none _ (by simp [quotaCall, hrule])]
        simp [resolving, resolve, hrule, answer]
    | some rule =>
        obtain ⟨ruleIndex, limit⟩ := rule
        have hlimit := hlimits ruleIndex limit r.call (limitedRule_eq_some hrule).2.2
        rw [Machine.delegate_step_some _
          (i := ⟨store.rateLimitKey r.call ruleIndex, r.nowSeconds⟩) (by simp [quotaCall, hrule])]
        simp [resolving, resolve, hrule, answer, quotaMachine, hlimit]
  exact congrArg Machine.mk hstep

theorem final_resolving {limits : KeyLimits} (hlimits : store.Governs limits) (maxKeys : ℕ)
    (inner : StateInner) (run : List Resolution) :
    (store.resolving maxKeys).final inner run =
      (quotaMachine maxKeys limits).final inner (run.filterMap store.quotaCall) := by
  rw [resolving_eq hlimits, Machine.final_delegate]

end RateLimitedPolicyStore

/-! ## Limits of a family of policies

The limit of a key, wherever its policy is found. -/

section Family

variable {rt : YamlRuntime} {ι : Type*} (stores : ι → RateLimitedPolicyStore rt)

open Classical in
/-- The limit of a key in a family of policies: that of the rule with its index in the policy with
its digest. -/
noncomputable def familyLimit (key : RateLimitKey) : RateLimit :=
  if h : ∃ limit i, (stores i).policyDigest = key.policyDigest ∧
      (stores i).engine.rateLimits.lookup key.ruleIndex = some limit then
    h.choose
  else
    ⟨1, 1⟩

theorem familyLimit_valid (key : RateLimitKey) : (familyLimit stores key).Valid := by
  unfold familyLimit
  split
  · rename_i h
    obtain ⟨i, -, hlookup⟩ := h.choose_spec
    obtain ⟨policy, haccepted⟩ := (stores i).accepted
    exact parseRateLimited_validLimits haccepted _ _ hlookup
  · exact ⟨by decide, by decide⟩

/-- The limits of a family of policies. -/
noncomputable def familyLimits : KeyLimits where
  limit := familyLimit stores
  maxCalls_pos key := (familyLimit_valid stores key).maxCalls.1
  maxCalls_le key := (familyLimit_valid stores key).maxCalls.2
  window_pos key := (familyLimit_valid stores key).windowSeconds.1
  window_le key := (familyLimit_valid stores key).windowSeconds.2

/-- With different digests, the limits of a family are those of each of its policies. -/
theorem familyLimits_governs
    (hdigest : Function.Injective (fun i => (stores i).policyDigest)) (i : ι) :
    (stores i).Governs (familyLimits stores) := by
  intro ruleIndex limit call hlookup
  have h : ∃ limit j, (stores j).policyDigest = (stores i).policyDigest ∧
      (stores j).engine.rateLimits.lookup ruleIndex = some limit := ⟨limit, i, rfl, hlookup⟩
  obtain ⟨j, hj, hfound⟩ := h.choose_spec
  obtain rfl : j = i := hdigest hj
  have hlimit : h.choose = limit := Option.some.inj (hfound.symm.trans hlookup)
  rw [← hlimit]
  exact dif_pos h

end Family

/-! ## A policy with one limited rule

The policy of the samples. -/

/-- One search call in every 60 seconds. -/
def searchPolicy : Yaml :=
  .mapping [(.string "version", .int 2), (.string "rules", .sequence [.mapping [
    (.string "action", .string "allow"),
    (.string "target", .mapping [(.string "tool", .string "search")]),
    (.string "rate_limit",
      .mapping [(.string "max_calls", .int 1), (.string "window_seconds", .int 60)])]])]

/-- The engine of `searchPolicy`. -/
def searchEngine : Engine where
  rules := [⟨.allow, Finmap.insert "tool" "search" ∅, .default, 0⟩]
  rateLimits := Finmap.insert 0 ⟨1, 60⟩ ∅
  version := 2
  defaultAction := .allow

theorem searchPolicy_accepted (rt : YamlRuntime) :
    parseRateLimited rt searchPolicy = .ok searchEngine := rfl

/-- A library without descriptions and timestamps, neither of which `searchPolicy` needs. -/
def plainRuntime : YamlRuntime := ⟨fun _ => "", fun _ => none⟩

/-- A resolver of `searchPolicy`. -/
def searchStore (policyDigest : String) : RateLimitedPolicyStore plainRuntime :=
  ⟨searchEngine, policyDigest, searchPolicy, searchPolicy_accepted plainRuntime⟩

/-- A search without agent or user, at a reading of the monotonic clock. -/
def searchAt (nowSeconds : ℕ) : Resolution := ⟨⟨none, some "search", [], none, ∅⟩, 0, nowSeconds⟩

/-! ## Exact counting

The calls under one quota, and the description of every decision of a run. -/

namespace RateLimitedPolicyStore

variable {rt : YamlRuntime} (store : RateLimitedPolicyStore rt)

/-- The answer allowed the call. -/
def answeredAllow : Except StateError Decision → Bool
  | .ok decision => decision.action == .allow
  | .error _ => false

/-- An earlier call selected the rule, came from the same agent, user and tool, and its reading
lies in the same window. -/
def SameQuota (earlier r : Resolution) (ruleIndex : ℕ) (limit : RateLimit) : Prop :=
  (store.limitedRule earlier).map Prod.fst = some ruleIndex ∧
    (earlier.call.agent = r.call.agent ∧ earlier.call.user = r.call.user ∧
      earlier.call.tool = r.call.tool) ∧
    earlier.nowSeconds / limit.windowSeconds = r.nowSeconds / limit.windowSeconds

instance (earlier r : Resolution) (ruleIndex : ℕ) (limit : RateLimit) :
    Decidable (store.SameQuota earlier r ruleIndex limit) :=
  inferInstanceAs (Decidable (_ ∧ _ ∧ _))

/-- The earlier calls under the same quota that were allowed. -/
def allowedBefore (h : List (Resolution × Except StateError Decision)) (r : Resolution)
    (ruleIndex : ℕ) (limit : RateLimit) : ℕ :=
  h.countP (fun entry =>
    decide (store.SameQuota entry.1 r ruleIndex limit) && answeredAllow entry.2)

variable {store}

theorem quotaCall_of_limitedRule {r : Resolution} {ruleIndex : ℕ} {limit : RateLimit}
    (h : store.limitedRule r = some (ruleIndex, limit)) :
    store.quotaCall r = some ⟨store.rateLimitKey r.call ruleIndex, r.nowSeconds⟩ := by
  simp [quotaCall, h]

theorem answeredAllow_afterConsume {decision : Decision} (h : decision.action = .allow)
    (consumed : Except StateError Bool) :
    answeredAllow (afterConsume decision consumed) = true ↔ consumed = .ok true := by
  cases consumed with
  | error e => simp [afterConsume, answeredAllow]
  | ok granted => cases granted <;> simp [afterConsume, answeredAllow, h]

/-- Keys of one policy agree iff rule and identity do. -/
theorem rateLimitKey_inj {call call' : PolicyCall} {ruleIndex ruleIndex' : ℕ} :
    store.rateLimitKey call ruleIndex = store.rateLimitKey call' ruleIndex' ↔
      ruleIndex = ruleIndex' ∧
        call.agent = call'.agent ∧ call.user = call'.user ∧ call.tool = call'.tool := by
  simp [rateLimitKey]

/-- The allowed calls of a run under a call's quota are the granted calls of its key. -/
theorem allowedBefore_trace {limits : KeyLimits} (hlimits : store.Governs limits) (maxKeys : ℕ)
    {r : Resolution} {ruleIndex : ℕ} {limit : RateLimit}
    (hrule : store.limitedRule r = some (ruleIndex, limit)) (before : List Resolution) :
    store.allowedBefore ((store.resolving maxKeys).trace .empty before) r ruleIndex limit =
      granted limits
        ((quotaMachine maxKeys limits).trace .empty (before.filterMap store.quotaCall))
        (store.rateLimitKey r.call ruleIndex) (r.nowSeconds / limit.windowSeconds) := by
  have hlimit := hlimits ruleIndex limit r.call (limitedRule_eq_some hrule).2.2
  rw [resolving_eq hlimits]
  refine Machine.countP_trace_delegate _ (fun earlier hnone => ?_)
    (fun earlier call consumed hsome => ?_) _ _
  · -- a call that did not ask the quota store selected no limited rule
    have hearlier : store.limitedRule earlier = none := by simpa [quotaCall] using hnone
    simp [SameQuota, hearlier]
  · -- a call that did ask was allowed iff the quota store granted it
    obtain ⟨⟨earlierIndex, earlierLimit⟩, hearlier, rfl⟩ := Option.map_eq_some_iff.1 hsome
    have hallow := (limitedRule_eq_some hearlier).1
    rw [Bool.eq_iff_iff, Bool.and_eq_true, decide_eq_true_eq, decide_eq_true_eq]
    simp only [SameQuota, hearlier, Option.map_some, Option.some.injEq, GrantedIn,
      rateLimitKey_inj, answer, answeredAllow_afterConsume hallow, hlimit]
    have hpositive : 1 ≤ limit.windowSeconds := by
      rw [← hlimit]
      exact limits.window_pos _
    rw [mem_window_iff hpositive]
    tauto

/-- **Rate-limited resolution counts exactly.**  In a run of one policy store over an empty quota
store, with nondecreasing readings and no more keys than fit, no call fails and every call lists
the rules of the pure resolution.  A call that selects no limited allow rule gets the pure
decision and leaves the quota state alone; any other call is allowed iff fewer than `max_calls`
earlier calls under the same quota were, and throttled otherwise.  An absent agent, user or tool
is an identity of its own. -/
theorem resolve_counts_exactly (store : RateLimitedPolicyStore rt) (maxKeys : ℕ)
    {run before after : List Resolution} {r : Resolution}
    (hclock : ((run.filterMap store.quotaCall).map QuotaCall.now).Pairwise (· ≤ ·))
    (hkeys : (distinctKeys (run.filterMap store.quotaCall)).card ≤ maxKeys)
    (hrun : run = before ++ r :: after) :
    (∃ decision,
      (store.resolve maxKeys ((store.resolving maxKeys).final .empty before) r).2 =
        .ok decision ∧
      decision.matchedRules = (store.engine.resolveCallAt r.call r.utcNow).matchedRules ∧
      (store.limitedRule r = none →
        decision.action = (store.engine.resolveCallAt r.call r.utcNow).action ∧
          (store.resolve maxKeys ((store.resolving maxKeys).final .empty before) r).1 =
            (store.resolving maxKeys).final .empty before) ∧
      ∀ ruleIndex limit, store.limitedRule r = some (ruleIndex, limit) →
        decision.action =
          if store.allowedBefore ((store.resolving maxKeys).trace .empty before) r ruleIndex
              limit < limit.maxCalls then .allow else .throttle) ∧
    ∀ earlier ruleIndex limit, store.SameQuota earlier r ruleIndex limit →
      ∀ s, (earlier.call.agent = none → r.call.agent ≠ some s) ∧
        (earlier.call.user = none → r.call.user ≠ some s) ∧
        (earlier.call.tool = none → r.call.tool ≠ some s) := by
  have hlimits : store.Governs (familyLimits fun _ : Unit => store) :=
    familyLimits_governs (fun _ => store) (Function.injective_of_subsingleton _) ()
  have hadmits : (quotaMachine maxKeys (familyLimits fun _ : Unit => store)).Along
      (Admits maxKeys) .empty (run.filterMap store.quotaCall) := along_admits hkeys hclock
  rw [hrun, List.filterMap_append, Machine.along_append] at hadmits
  refine ⟨?_, ?_⟩
  · cases hrule : store.limitedRule r with
    | none =>
        refine ⟨store.decision r, by simp [resolve, hrule], decision_matchedRules r, ?_, by simp⟩
        intro _
        rw [decision_of_limitedRule_none hrule]
        exact ⟨rfl, by simp [resolve, hrule]⟩
    | some rule =>
        obtain ⟨ruleIndex, limit⟩ := rule
        obtain ⟨hallow, -, hlookup⟩ := limitedRule_eq_some hrule
        have hlimit := hlimits ruleIndex limit r.call hlookup
        have hasked := quotaCall_of_limitedRule hrule
        have hhead := hadmits.2
        rw [List.filterMap_cons_some hasked, Machine.along_cons] at hhead
        -- the quota store answers like the ideal counter at this point of the run
        have hanswer := (summarises_final hadmits.1).answer_eq hhead.1
        have hcount := allowedBefore_trace hlimits maxKeys hrule before
        have hresolve : (store.resolve maxKeys ((store.resolving maxKeys).final .empty before)
            r).2 = afterConsume (store.decision r) (.ok (decide
              (store.allowedBefore ((store.resolving maxKeys).trace .empty before) r ruleIndex
                limit < limit.maxCalls))) := by
          rw [resolve_of_limitedRule hlimits hrule, final_resolving hlimits, hanswer, hcount,
            idealAnswer, hlimit]
        by_cases hlt : store.allowedBefore ((store.resolving maxKeys).trace .empty before) r
            ruleIndex limit < limit.maxCalls
        · rw [decide_eq_true hlt] at hresolve
          refine ⟨store.decision r, hresolve, decision_matchedRules r, by simp, ?_⟩
          intro _ _ hsame
          obtain ⟨rfl, rfl⟩ := Prod.mk.inj (Option.some.inj hsame)
          rw [if_pos hlt, hallow]
        · rw [decide_eq_false hlt] at hresolve
          refine ⟨_, hresolve, decision_matchedRules r, by simp, ?_⟩
          intro _ _ hsame
          obtain ⟨rfl, rfl⟩ := Prod.mk.inj (Option.some.inj hsame)
          rw [if_neg hlt]
  · rintro earlier ruleIndex limit ⟨-, ⟨hagent, huser, htool⟩, -⟩ s
    rw [hagent, huser, htool]
    simp +contextual

/-- Two searches in one window: the second is throttled. -/
theorem resolve_counts_exactly_search :
    ∃ decision, ((searchStore "policy").resolve 1
      (((searchStore "policy").resolving 1).final .empty [searchAt 10]) (searchAt 11)).2 =
        .ok decision ∧ decision.action = .throttle := by
  have hrun : [searchAt 10, searchAt 11] = [searchAt 10] ++ searchAt 11 :: [] := rfl
  obtain ⟨⟨decision, hok, -, -, hlimited⟩, -⟩ :=
    resolve_counts_exactly (searchStore "policy") 1 (by decide +kernel) (by decide +kernel) hrun
  have hcount : (searchStore "policy").allowedBefore
      (((searchStore "policy").resolving 1).trace .empty [searchAt 10]) (searchAt 11) 0 ⟨1, 60⟩ =
        1 := by decide +kernel
  refine ⟨decision, hok, ?_⟩
  rw [hlimited 0 ⟨1, 60⟩ (by decide +kernel), hcount]
  rfl

end RateLimitedPolicyStore

end HpGuardian

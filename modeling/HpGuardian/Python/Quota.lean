import HpGuardian.Framework.Dictionary
import HpGuardian.Python.Parser
import HpGuardian.Quota.PolicyStore

/-!
# Quota stores in Python (`src/hp_guard/state.py`)

The Python store keeps its buckets in a dictionary and takes any integer for a clock reading.  The
buckets it drops to make room are found by a pass over the dictionary and then deleted one by one.

A resolver accepts any store, so it checks what it gets back from it: a Boolean is a decision,
anything else, and anything that the store raises, is a failure of the state.  `Consumed` lists the
ways in which a store can end, and `Consumed.ofStore` is how the one in memory does.

The decision of a resolver is that of the engine, with the store's answer put in where a limited
rule was selected.
-/

namespace HpGuardian.Python

open Framework

/-- `StateError`. -/
structure StateError where
  code : String
  message : String
  deriving DecidableEq, Repr

/-- A `StateError` with the one code that the module raises. -/
def unavailable (message : String) : StateError := ⟨"state_unavailable", message⟩

/-- The fields of a store that its lock protects: the buckets hold a window start and a count. The
dictionary keeps the order in which its keys were put in. -/
structure StateInner where
  lastNow : Option ℤ
  buckets : Dictionary RateLimitKey (ℤ × ℤ)

/-- The state of a new store. -/
def StateInner.empty : StateInner := ⟨none, .empty _ _⟩

/-- `_prune_stale_buckets`. -/
def pruneStaleBuckets (buckets : Dictionary RateLimitKey (ℤ × ℤ)) (currentWindowStart : ℤ) :
    Dictionary RateLimitKey (ℤ × ℤ) :=
  let stale := (buckets.entries.filter (fun entry => entry.2.1 ≠ currentWindowStart)).map Prod.fst
  stale.foldl Dictionary.delete buckets

/-- The key is new and the store is full. -/
def noRoom (maxKeys : ℕ) (buckets : Dictionary RateLimitKey (ℤ × ℤ)) (key : RateLimitKey) : Bool :=
  decide (key ∉ buckets.keys) && maxKeys ≤ buckets.length

/-- `InMemoryRateLimitStore.check_and_consume`. -/
def checkAndConsume (maxKeys : ℕ) (inner : StateInner) (key : RateLimitKey) (limit : RateLimit)
    (nowSeconds : ℤ) : StateInner × Except StateError Bool :=
  if nowSeconds < 0 then
    (inner, .error (unavailable "monotonic time must be a non-negative integer"))
  else if inner.lastNow.any (fun lastNow => nowSeconds < lastNow) then
    (inner, .error (unavailable "monotonic clock regressed"))
  else
    let windowStart := nowSeconds - nowSeconds % limit.windowSeconds
    let (previousStart, previousCount) := (inner.buckets.get key).getD (windowStart, 0)
    let count := if previousStart ≠ windowStart then 0 else previousCount
    if limit.maxCalls ≤ count then
      (⟨some nowSeconds, inner.buckets.set key (windowStart, count)⟩, .ok false)
    else
      let buckets :=
        if noRoom maxKeys inner.buckets key then pruneStaleBuckets inner.buckets windowStart
        else inner.buckets
      if noRoom maxKeys buckets key then
        (⟨some nowSeconds, buckets⟩,
          .error (unavailable "rate-limit state capacity is exhausted"))
      else
        (⟨some nowSeconds, buckets.set key (windowStart, count + 1)⟩, .ok true)

/-! ## Resolvers

Resolvers over any store, and over the one in memory. -/

/-- What a call of a store's `check_and_consume` ends with. The store in memory never returns
another value, but a resolver may be given any store and checks. -/
inductive Consumed where
  | bool (consumed : Bool)
  /-- Any other value. -/
  | value
  | stateError (error : StateError)
  /-- Any other exception. -/
  | exception

/-- How the in-memory store ends. -/
def Consumed.ofStore : Except StateError Bool → Consumed
  | .ok consumed => .bool consumed
  | .error error => .stateError error

/-- What `resolve` raises: the engine's own exception, or a failure of the state. -/
inductive ResolveError where
  | engine (error : Exception)
  | state (error : StateError)
  deriving DecidableEq, Repr

/-- The decision once the store has ended. -/
def afterConsume (decision : Decision) : Consumed → Except ResolveError Decision
  | .bool true => .ok decision
  | .bool false => .ok ⟨.throttle, decision.matchedRules⟩
  | .value => .error (.state (unavailable "rate-limit state store returned an invalid result"))
  | .stateError error => .error (.state error)
  | .exception => .error (.state (unavailable "rate-limit state store failed"))

/-- A resolver; the store and the clocks are inputs of each call. -/
structure RateLimitedPolicyStore where
  engine : Engine
  digest : String

/-- `RateLimitedPolicyStore.__init__`. -/
def RateLimitedPolicyStore.init (rt : YamlRuntime) (decode : String → Except String Yaml)
    (sha256 : String → String) (policyText : String) :
    Except PolicyError RateLimitedPolicyStore := do
  let engine ← parseRateLimitedText rt decode policyText
  .ok ⟨engine, sha256 policyText⟩

/-- `RateLimitedPolicyStore.resolve` over an in-memory store of capacity `maxKeys`. -/
def RateLimitedPolicyStore.resolve (utcTimestamp : String → Option Instant)
    (store : RateLimitedPolicyStore) (maxKeys : ℕ) (inner : StateInner) (call : PolicyCall)
    (utcNow : Instant) (nowSeconds : ℤ) : StateInner × Except ResolveError Decision :=
  match store.engine.resolveWithSelectedRuleAt utcTimestamp call utcNow with
  | .error error => (inner, .error (.engine error))
  | .ok (decision, none) => (inner, .ok decision)
  | .ok (decision, some selectedRule) =>
      if decision.action ≠ .allow then
        (inner, .ok decision)
      else
        match store.engine.rateLimits.lookup selectedRule with
        | none => (inner, .ok decision)
        | some limit =>
            let key : RateLimitKey :=
              ⟨store.digest, selectedRule, call.agent, call.user, call.tool⟩
            let (inner, consumed) := checkAndConsume maxKeys inner key limit nowSeconds
            (inner, afterConsume decision (.ofStore consumed))

end HpGuardian.Python

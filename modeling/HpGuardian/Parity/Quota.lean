import HpGuardian.Parity.Parser
import HpGuardian.Python.Quota

/-!
# The quota stores of the two runtimes

Any number of policies share one quota store in each runtime.  Whatever calls reach the store with
whatever clock readings, in whatever order, the two stores make the same decisions and fail on the
same calls (`rate_limits_agree`): clocks that moved back, evictions and a full store included.

The one store is a sorted map and the other a dictionary in insertion order.  Neither program looks
at the order of the buckets, so the dictionary is taken for the map that it represents, and the
operations are compared as operations on maps: a lookup, an insertion, and the pass that drops
stale buckets before a new one is made.  What both compute from a bucket and a reading is the same
arithmetic on integers.

A run of calls of several policies is one run of the store with the calls in their order.  The
policies are resolvers, one for each text, and they are the same in both runtimes if the texts are
read alike.
-/

namespace HpGuardian

open Framework

/-! ## The buckets

The relation between the two stores, and one call of each. -/

/-- A bucket as the Python store holds it. -/
def pythonBucket (bucket : ℕ × ℕ) : ℤ × ℤ := (bucket.1, bucket.2)

/-- The two stores hold the same buckets and have accepted the same reading. The dictionary of the
one represents the map of the other, in any order. -/
structure SameBuckets (rust : StateInner) (python : Python.StateInner) : Prop where
  lastNow : python.lastNow = rust.lastNow.map (fun last : ℕ => (last : ℤ))
  buckets : python.buckets.Represents pythonBucket rust.buckets

/-- A failure of the state. -/
def SameStateError (rust : StateError) (python : Python.StateError) : Prop :=
  rust = .stateUnavailable ∧ python.code = "state_unavailable"

section

variable {rust : Buckets} {python : Dictionary RateLimitKey (ℤ × ℤ)}

theorem python_windowStart (limit : RateLimit) (now : ℕ) :
    (now : ℤ) - now % limit.windowSeconds = windowStart limit now := by
  rw [windowStart, Int.ofNat_sub (Nat.mod_le _ _), Int.natCast_emod]

theorem python_noRoom (h : python.Represents pythonBucket rust) (maxKeys : ℕ)
    (key : RateLimitKey) : Python.noRoom maxKeys python key = decide (NoRoom maxKeys rust key) := by
  rw [Bool.eq_iff_iff, Python.noRoom, h.length, Bool.and_eq_true, decide_eq_true_eq,
    decide_eq_true_eq, decide_eq_true_eq, h.mem_keys]
  rfl

/-- The pass over the stale buckets. -/
theorem pruneStaleBuckets_represents (h : python.Represents pythonBucket rust) (start : ℕ) :
    (Python.pruneStaleBuckets python start).Represents pythonBucket
      (evictOtherWindows rust start) := by
  refine h.retain fun key => ?_
  constructor
  · intro hmem
    obtain ⟨entry, hentry, rfl⟩ := List.mem_map.1 hmem
    obtain ⟨hthere, hstale⟩ := List.mem_filter.1 hentry
    have hlookup : python.get entry.1 = some entry.2 := Dictionary.get_eq_some_iff.2 hthere
    rw [h entry.1, Option.map_eq_some_iff] at hlookup
    obtain ⟨bucket, hbucket, hvalue⟩ := hlookup
    refine ⟨bucket, hbucket, ?_⟩
    rw [← hvalue] at hstale
    simpa [pythonBucket, Int.natCast_inj] using hstale
  · rintro ⟨bucket, hbucket, hstale⟩
    have hlookup : python.get key = some (pythonBucket bucket) := by rw [h key, hbucket]; rfl
    refine List.mem_map.2 ⟨(key, pythonBucket bucket),
      List.mem_filter.2 ⟨Dictionary.get_eq_some_iff.1 hlookup, ?_⟩, rfl⟩
    simpa [pythonBucket, Int.natCast_inj] using hstale

theorem makeRoom_represents (h : python.Represents pythonBucket rust) (maxKeys : ℕ)
    (key : RateLimitKey) (start : ℕ) :
    (if Python.noRoom maxKeys python key then Python.pruneStaleBuckets python start
      else python).Represents pythonBucket (makeRoom maxKeys rust key start) := by
  rw [python_noRoom h, makeRoom]
  simp only [decide_eq_true_eq]
  split_ifs
  · exact pruneStaleBuckets_represents h start
  · exact h

/-- The calls counted in the window. -/
theorem python_count (h : python.Represents pythonBucket rust) (key : RateLimitKey) (start : ℕ) :
    let previous := (python.get key).getD ((start : ℤ), 0)
    (if previous.1 ≠ start then 0 else previous.2) = (countInWindow rust key start : ℤ) := by
  rw [h key, countInWindow]
  cases rust.lookup key with
  | none => simp
  | some bucket =>
      simp only [pythonBucket, Option.map_some, Option.getD_some, ne_eq, Int.natCast_inj]
      split_ifs <;> rfl

end

section

variable {rust : StateInner} {python : Python.StateInner}

theorem SameBuckets.empty : SameBuckets .empty .empty :=
  ⟨rfl, Dictionary.represents_empty pythonBucket⟩

theorem python_regressed (h : SameBuckets rust python) (now : ℕ) :
    python.lastNow.any (fun last => (now : ℤ) < last) = decide (Regressed rust now) := by
  rw [h.lastNow, Option.any_map]
  cases hlast : rust.lastNow with
  | none => simp [Regressed, hlast]
  | some last => simp [Regressed, hlast]

/-- One call of the two stores. -/
theorem checkAndConsume_agree (h : SameBuckets rust python) (maxKeys : ℕ) (key : RateLimitKey)
    (limit : RateLimit) (now : ℕ) :
    Alike (· = ·) SameStateError (checkAndConsume maxKeys rust key limit now).2
        (Python.checkAndConsume maxKeys python key limit now).2 ∧
      SameBuckets (checkAndConsume maxKeys rust key limit now).1
        (Python.checkAndConsume maxKeys python key limit now).1 := by
  have hcount := python_count h.buckets key (windowStart limit now)
  have hroom := makeRoom_represents h.buckets maxKeys key (windowStart limit now)
  have hlast : some (now : ℤ) = (some now).map (fun last : ℕ => (last : ℤ)) := rfl
  unfold Python.checkAndConsume checkAndConsume
  rw [if_neg (by omega : ¬ (now : ℤ) < 0), python_regressed h]
  simp only [decide_eq_true_eq, python_windowStart]
  by_cases hregressed : Regressed rust now
  · rw [if_pos hregressed, if_pos hregressed]
    exact ⟨.error ⟨rfl, rfl⟩, h⟩
  · rw [if_neg hregressed, if_neg hregressed, hcount]
    simp only [Int.ofNat_le]
    by_cases hexhausted : limit.maxCalls ≤ countInWindow rust.buckets key (windowStart limit now)
    · rw [if_pos hexhausted, if_pos hexhausted]
      exact ⟨.ok rfl, hlast, h.buckets.set key (_, _)⟩
    · rw [if_neg hexhausted, if_neg hexhausted, python_noRoom hroom]
      simp only [decide_eq_true_eq]
      by_cases hfull :
          NoRoom maxKeys (makeRoom maxKeys rust.buckets key (windowStart limit now)) key
      · rw [if_pos hfull, if_pos hfull]
        exact ⟨.error ⟨rfl, rfl⟩, hlast, hroom⟩
      · rw [if_neg hfull, if_neg hfull]
        exact ⟨.ok rfl, hlast, hroom.set key (_, _ + 1)⟩

end

/-! ## Policies

Resolvers over a shared store.  A call is resolved first and then asks the store, if the selected
rule is limited. -/

/-- The two resolvers have the same engine and the same digest, hence the same keys for the same
calls. -/
structure SameResolver {rt : YamlRuntime} (rust : RateLimitedPolicyStore rt)
    (python : Python.RateLimitedPolicyStore) : Prop where
  engine : SameEngine rt.utcTimestamp rust.engine python.engine
  digest : python.digest = rust.policyDigest

/-- The same decision, or a failure of the state in both runtimes. -/
abbrev SameAnswer : Except StateError Decision → Except Python.ResolveError Decision → Prop :=
  Alike (· = ·) (fun rust python => ∃ error, python = .state error ∧ SameStateError rust error)

/-- A text builds the same resolver in both runtimes, or in neither. -/
theorem resolvers_agree (rt : YamlRuntime) (prt : Python.YamlRuntime)
    (hts : prt.utcTimestamp = rt.utcTimestamp) {decode decode' : String → Except String Yaml}
    (sha256 : String → String) {text : String} (hread : DecodedAlike decode decode' text) :
    SameOutcome SameResolver (RateLimitedPolicyStore.withClock rt decode sha256 text)
      (Python.RateLimitedPolicyStore.init prt decode' sha256 text) := by
  unfold RateLimitedPolicyStore.withClock Python.RateLimitedPolicyStore.init
    Python.parseRateLimitedText
  cases hread with
  | refused hrust hpython =>
      rw [hrust, hpython]
      exact .error
  | @read policy hrust hpython hplain =>
      rw [hrust, hpython]
      have hparsed := sameOutcome_parseRateLimited hts hplain
      dsimp only
      split
      · rename_i engine hengine
        obtain ⟨python, hpython, hsame⟩ := hparsed.exists_right hengine
        rw [hpython]
        exact .ok ⟨hsame, rfl⟩
      · rename_i error herror
        rw [herror] at hparsed
        cases hfailed : Python.parseRateLimited prt policy with
        | error error' => exact .error
        | ok engine =>
            rw [hfailed] at hparsed
            cases hparsed

section

variable {rt : YamlRuntime} {ι : Type*}

/-- Resolvers of the Rust runtime that share a quota store. -/
def rustResolvers (stores : ι → RateLimitedPolicyStore rt) (maxKeys : ℕ) :
    Machine StateInner (ι × Resolution) (Except StateError Decision) where
  step inner input := (stores input.1).resolve maxKeys inner input.2

/-- Resolvers of the Python runtime that share a quota store. -/
def pythonResolvers (utcTimestamp : String → Option Instant)
    (stores : ι → Python.RateLimitedPolicyStore) (maxKeys : ℕ) :
    Machine Python.StateInner (ι × Resolution) (Except Python.ResolveError Decision) where
  step inner input :=
    (stores input.1).resolve utcTimestamp maxKeys inner input.2.call input.2.utcNow
      input.2.nowSeconds

theorem afterConsume_agree {consumed : Except StateError Bool}
    {consumed' : Except Python.StateError Bool} (decision : Decision)
    (h : Alike (· = ·) SameStateError consumed consumed') :
    SameAnswer (RateLimitedPolicyStore.afterConsume decision consumed)
      (Python.afterConsume decision (.ofStore consumed')) := by
  cases h with
  | @ok answer _ h =>
      subst h
      cases answer with
      | true => exact .ok rfl
      | false => exact .ok rfl
  | error h => exact .error ⟨_, rfl, h⟩

/-- One call of two resolvers. -/
theorem resolve_agree {store : RateLimitedPolicyStore rt} {store' : Python.RateLimitedPolicyStore}
    (hstore : SameResolver store store') {rust : StateInner} {python : Python.StateInner}
    (h : SameBuckets rust python) (maxKeys : ℕ) (r : Resolution) :
    SameAnswer (store.resolve maxKeys rust r).2
        (store'.resolve rt.utcTimestamp maxKeys python r.call r.utcNow r.nowSeconds).2 ∧
      SameBuckets (store.resolve maxKeys rust r).1
        (store'.resolve rt.utcTimestamp maxKeys python r.call r.utcNow r.nowSeconds).1 := by
  have hengine := hstore.engine.resolveWithSelectedRuleAt r.call r.utcNow
  unfold RateLimitedPolicyStore.resolve Python.RateLimitedPolicyStore.resolve
  rw [hengine]
  unfold RateLimitedPolicyStore.limitedRule RateLimitedPolicyStore.decision
  rcases store.engine.resolveCallWithSelectedRuleAt r.call r.utcNow with ⟨decision, selected⟩
  cases selected with
  | none => exact ⟨.ok rfl, h⟩
  | some selected =>
      dsimp only
      split_ifs
      · exact ⟨.ok rfl, h⟩
      · rw [hstore.engine.rateLimits]
        cases store.engine.rateLimits.lookup selected with
        | none => exact ⟨.ok rfl, h⟩
        | some limit =>
            have hkey : (⟨store'.digest, selected, r.call.agent, r.call.user, r.call.tool⟩ :
                RateLimitKey) = store.rateLimitKey r.call selected := by
              rw [hstore.digest]
              rfl
            dsimp only [Option.map_some]
            rw [hkey]
            obtain ⟨hanswer, hnext⟩ := checkAndConsume_agree h maxKeys
              (store.rateLimitKey r.call selected) limit r.nowSeconds
            exact ⟨afterConsume_agree decision hanswer, hnext⟩

end

/-- **Rate limits in both runtimes.**  Texts that both decoders read alike build the same resolvers
in both runtimes, or in neither.  Over a shared quota store of one capacity, whatever calls reach
it with whatever clock readings in whatever order, the resolvers of both runtimes make the same
decisions and fail on the same calls. -/
theorem rate_limits_agree (rt : YamlRuntime) (prt : Python.YamlRuntime)
    (hts : prt.utcTimestamp = rt.utcTimestamp) (decode decode' : String → Except String Yaml)
    (sha256 : String → String) {ι : Type} (texts : ι → String)
    (hread : ∀ i, DecodedAlike decode decode' (texts i)) :
    (∀ i, SameOutcome SameResolver (RateLimitedPolicyStore.withClock rt decode sha256 (texts i))
      (Python.RateLimitedPolicyStore.init prt decode' sha256 (texts i))) ∧
    ∀ (rust : ι → RateLimitedPolicyStore rt) (python : ι → Python.RateLimitedPolicyStore),
      (∀ i, RateLimitedPolicyStore.withClock rt decode sha256 (texts i) = .ok (rust i)) →
      (∀ i, Python.RateLimitedPolicyStore.init prt decode' sha256 (texts i) = .ok (python i)) →
      ∀ (maxKeys : ℕ) (run : List (ι × Resolution)),
        List.Forall₂ (fun entry entry' => entry.1 = entry'.1 ∧ SameAnswer entry.2 entry'.2)
          ((rustResolvers rust maxKeys).trace .empty run)
          ((pythonResolvers rt.utcTimestamp python maxKeys).trace .empty run) := by
  have hbuilt := fun i => resolvers_agree rt prt hts sha256 (hread i)
  refine ⟨hbuilt, fun rust python hrust hpython maxKeys run => ?_⟩
  have hsame : ∀ i, SameResolver (rust i) (python i) := by
    intro i
    have h := hbuilt i
    rw [hrust i, hpython i] at h
    cases h with
    | ok h => exact h
  refine ((rustResolvers rust maxKeys).trace_simulates (R := SameBuckets) (I := Eq)
    (O := SameAnswer) (fun inner inner' input _ h hinput => ?_) SameBuckets.empty
    (List.forall₂_refl run)).1
  subst hinput
  exact resolve_agree (hsame input.1) h maxKeys input.2

theorem searchPolicy_plain : Plain .document searchPolicy := by
  simp [searchPolicy, Plain, PlainEntries, PlainItems, Place.child, Fields.DistinctKeys,
    Yaml.asStr]
  decide +kernel

/-- The search policy twice, with a clock that moves back. -/
theorem rate_limits_agree_search :
    ∃ python : Bool → Python.RateLimitedPolicyStore,
      List.Forall₂ (fun entry entry' => entry.1 = entry'.1 ∧ SameAnswer entry.2 entry'.2)
        ((rustResolvers (fun _ => searchStore "d1") 1).trace .empty
          [(true, searchAt 0), (false, searchAt 61), (true, searchAt 60)])
        ((pythonResolvers (fun _ => none) python 1).trace .empty
          [(true, searchAt 0), (false, searchAt 61), (true, searchAt 60)]) := by
  obtain ⟨hbuilt, hruns⟩ := rate_limits_agree plainRuntime ⟨fun _ => "", fun _ => none⟩ rfl
    (fun _ => .ok searchPolicy) (fun _ => .ok searchPolicy) (fun _ => "d1")
    (fun _ : Bool => "search") (fun _ => .read rfl rfl searchPolicy_plain)
  have hrust : ∀ _ : Bool, RateLimitedPolicyStore.withClock plainRuntime
      (fun _ => .ok searchPolicy) (fun _ => "d1") "search" = .ok (searchStore "d1") := fun _ => rfl
  choose python hpython _ using fun i => (hbuilt i).exists_right (hrust i)
  exact ⟨python, hruns _ python hrust hpython 1 _⟩

end HpGuardian

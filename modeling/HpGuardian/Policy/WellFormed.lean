import HpGuardian.Framework.PartialTests
import HpGuardian.Policy.ConditionTrees
import HpGuardian.Policy.Targets
import HpGuardian.Quota.Store
import Mathlib.Data.Finset.Sort
import Mathlib.Data.String.Basic

/-!
# Accepted policies are well formed

The evaluators answer every rule, also one that no document produces: a target with an unknown key
or a condition with an invalid pattern simply never matches.  Such an answer would hide a mistake
of the parser, so it has to be shown that it is never given.

`Strict` holds the same evaluators without these answers: they return an `Option`, and are
undefined where the program would fall back on them; the quota store is undefined where it would
divide by zero.  An accepted policy is `WellFormed`, and on a well formed policy the strict
evaluators are defined everywhere and give the answers of the ordinary ones.

That what the parser builds is well formed is shown for one entry, from how it is read, and lifted
to documents by the description of accepted documents.  Patterns and time windows are checked when
a condition is parsed, targets have the keys of fields, and limits are within their bounds.
-/

namespace HpGuardian

open Framework

/-! ## Well formed policies

The invariants of an engine, as one structure. -/

/-- A property of all leaves of a condition tree. -/
inductive Condition.EveryLeaf (P : Option String → Option String → Option TimeWindow → Prop) :
    Condition → Prop
  | leaves {argsMatch pathPattern : Option String} {timeWindow : Option TimeWindow}
      (h : P argsMatch pathPattern timeWindow) :
      EveryLeaf P (.leaves argsMatch pathPattern timeWindow)
  | all {children : List Condition} (h : ∀ child ∈ children, EveryLeaf P child) :
      EveryLeaf P (.all children)
  | any {children : List Condition} (h : ∀ child ∈ children, EveryLeaf P child) :
      EveryLeaf P (.any children)
  | not {child : Condition} (h : EveryLeaf P child) : EveryLeaf P (.not child)

/-- The pattern of a leaf can be parsed, and its time window is not empty. -/
structure ValidLeaves (argsMatch pathPattern : Option String) (timeWindow : Option TimeWindow) :
    Prop where
  argsMatch : ∀ pattern ∈ argsMatch, ∃ parsed, parseArgsPattern pattern = .ok parsed
  timeWindow : ∀ window ∈ timeWindow, window.start < window.stop

/-- A policy that the parser can have built. Everything that the engine, the quota store and the
simulator rely on is a field of it, so that none of them has to look at the document again. -/
structure WellFormed (engine : Engine) : Prop where
  /-- Rule number `i` has index `i`. -/
  numbered : ∀ (index : ℕ) (rule : Rule), engine.rules[index]? = some rule → rule.ruleIndex = index
  targetKeys : ∀ rule ∈ engine.rules, ∀ key ∈ rule.target,
    key = "agent" ∨ key = "tool" ∨ key = "user" ∨ "context.".toList <+: key.toList
  bounds : ∀ rule ∈ engine.rules, rule.condition.levels ≤ 32 ∧ rule.condition.nodes ≤ 128
  leaves : ∀ rule ∈ engine.rules, rule.condition.EveryLeaf ValidLeaves
  /-- Only allow rules are limited, and every limit is valid. -/
  limits : ∀ (index : ℕ) (limit : RateLimit), engine.rateLimits.lookup index = some limit →
    (∃ rule, engine.rules[index]? = some rule ∧ rule.action = .allow) ∧ limit.Valid

/-- The id that an entry declares. -/
def RuleEntry.declaredId (entry : RuleEntry) : Option String :=
  (Fields.last (entry.value.asMapping.getD []) "id").bind Yaml.asStr

/-! ## Strict evaluators

Each ordinary evaluator without its fallback, in the order in which it looks at things. -/

namespace Strict

/-- One entry of a target, undefined on an unknown key. -/
def targetEntryMatches (call : PolicyCall) (key value : String) : Option Bool :=
  if key = "agent" then some (callFieldIs call.agent value)
  else if key = "tool" then some (callFieldIs call.tool value)
  else if key = "user" then some (callFieldIs call.user value)
  else
    match stripContextPrefix key with
    | some contextKey => some (call.context.lookup contextKey == some value)
    | none => none

/-- The entries of a target in the order of its keys. -/
def targetEntries (target : StringMap) : List (String × String) :=
  (target.keys.sort (· ≤ ·)).filterMap (fun key => (target.lookup key).map (fun v => (key, v)))

/-- `rule_matches_rule`, up to the first entry that does not match. -/
def ruleMatchesRule (rule : Rule) (call : PolicyCall) : Option Bool :=
  (targetEntries rule.target).allM (fun entry => targetEntryMatches call entry.1 entry.2)

/-- `args_match`, undefined on a pattern that cannot be parsed. -/
def argsMatch (text pattern : String) : Option Bool :=
  match parseArgsPattern pattern with
  | .ok _ => some (HpGuardian.argsMatch text pattern)
  | .error _ => none

mutual

/-- `evaluate_condition`, undefined where `args_match` is. -/
def evaluateCondition (call : PolicyCall) (now : Instant) : Condition → Option Bool
  | .leaves argsPattern pathPattern timeWindow => do
      let argsHold ← argsPattern.elim (some true) (argsMatch (" ".intercalate call.args))
      some (argsHold && HpGuardian.evaluateCondition call now (.leaves none pathPattern timeWindow))
  | .all children => evaluateAll call now children
  | .any children => evaluateAny call now children
  | .not child => do
      let holds ← evaluateCondition call now child
      some !holds

/-- The `all` over a composition's children, up to the first that does not hold. -/
def evaluateAll (call : PolicyCall) (now : Instant) : List Condition → Option Bool
  | [] => some true
  | child :: children => do
      let holds ← evaluateCondition call now child
      if holds then evaluateAll call now children else some false

/-- The `any` over a composition's children, up to the first that holds. -/
def evaluateAny (call : PolicyCall) (now : Instant) : List Condition → Option Bool
  | [] => some false
  | child :: children => do
      let holds ← evaluateCondition call now child
      if holds then some true else evaluateAny call now children

end

/-- The rules whose target and condition match; the condition is evaluated if the target matches. -/
def matching (engine : Engine) (call : PolicyCall) (now : Instant) : Option (List Rule) :=
  engine.rules.filterM (fun rule => do
    let targetMatches ← ruleMatchesRule rule call
    if targetMatches then evaluateCondition call now rule.condition else some false)

/-- `check_and_consume`, undefined where it would divide by zero. -/
def checkAndConsume (maxKeys : ℕ) (inner : StateInner) (key : RateLimitKey) (limit : RateLimit)
    (nowSeconds : ℕ) : Option (StateInner × Except StateError Bool) :=
  if ¬ Regressed inner nowSeconds ∧ limit.windowSeconds = 0 then none
  else some (HpGuardian.checkAndConsume maxKeys inner key limit nowSeconds)

end Strict

/-! ## No evaluator falls back

Evaluator by evaluator: defined on what is well formed, with the ordinary answer. -/

theorem mem_targetEntries {target : StringMap} {entry : String × String} :
    entry ∈ Strict.targetEntries target ↔ target.lookup entry.1 = some entry.2 := by
  obtain ⟨key, value⟩ := entry
  simp only [Strict.targetEntries, List.mem_filterMap, Finset.mem_sort, Finmap.mem_keys,
    Option.map_eq_some_iff, Prod.mk.injEq]
  constructor
  · rintro ⟨key', -, value', hlookup, rfl, rfl⟩
    exact hlookup
  · intro hlookup
    exact ⟨key, Finmap.mem_of_lookup_eq_some hlookup, value, hlookup, rfl, rfl⟩

/-- A known key is compared, with the answer of the ordinary evaluator. -/
theorem strict_targetEntryMatches (call : PolicyCall) {key : String} (value : String)
    (hkey : key = "agent" ∨ key = "tool" ∨ key = "user" ∨ "context.".toList <+: key.toList) :
    Strict.targetEntryMatches call key value = some (targetEntryMatches call key value) := by
  unfold Strict.targetEntryMatches targetEntryMatches
  split_ifs with hagent htool huser
  · rfl
  · rfl
  · rfl
  · have hcontext : "context.".toList <+: key.toList := by tauto
    rw [stripContextPrefix, if_pos hcontext]

theorem strict_ruleMatchesRule {rule : Rule} (call : PolicyCall)
    (hkeys : ∀ key ∈ rule.target,
      key = "agent" ∨ key = "tool" ∨ key = "user" ∨ "context.".toList <+: key.toList) :
    Strict.ruleMatchesRule rule call = some (ruleMatchesRule rule call) := by
  have hentries : ∀ entry ∈ Strict.targetEntries rule.target,
      Strict.targetEntryMatches call entry.1 entry.2 =
        some (targetEntryMatches call entry.1 entry.2) := fun entry hentry =>
    strict_targetEntryMatches call entry.2
      (hkeys entry.1 (Finmap.mem_of_lookup_eq_some (mem_targetEntries.1 hentry)))
  rw [Strict.ruleMatchesRule, allM_eq_some hentries, Option.some.injEq, Bool.eq_iff_iff,
    List.all_eq_true, ruleMatchesRule, Finmap.everyEntry_iff]
  constructor
  · intro hall key value hlookup
    exact hall (key, value) (mem_targetEntries.2 hlookup)
  · intro hall entry hentry
    exact hall entry.1 entry.2 (mem_targetEntries.1 hentry)

theorem strict_evaluateAll (call : PolicyCall) (now : Instant) (children : List Condition) :
    Strict.evaluateAll call now children =
      children.allM (Strict.evaluateCondition call now) := by
  induction children with
  | nil => rfl
  | cons child children ih =>
      rw [Strict.evaluateAll, List.allM]
      refine bind_congr fun holds => ?_
      cases holds with
      | true => exact ih
      | false => rfl

theorem strict_evaluateAny (call : PolicyCall) (now : Instant) (children : List Condition) :
    Strict.evaluateAny call now children =
      children.anyM (Strict.evaluateCondition call now) := by
  induction children with
  | nil => rfl
  | cons child children ih =>
      rw [Strict.evaluateAny, List.anyM]
      refine bind_congr fun holds => ?_
      cases holds with
      | true => rfl
      | false => exact ih

/-- A pattern that can be parsed is matched, with the answer of the ordinary evaluator. -/
theorem strict_evaluateLeaves (call : PolicyCall) (now : Instant)
    {argsPattern pathPattern : Option String} {timeWindow : Option TimeWindow}
    (h : ValidLeaves argsPattern pathPattern timeWindow) :
    Strict.evaluateCondition call now (.leaves argsPattern pathPattern timeWindow) =
      some (evaluateCondition call now (.leaves argsPattern pathPattern timeWindow)) := by
  rw [Strict.evaluateCondition]
  cases argsPattern with
  | none => simp [evaluateCondition]
  | some pattern =>
      obtain ⟨parsed, hparse⟩ := h.argsMatch pattern rfl
      simp [Strict.argsMatch, hparse, evaluateCondition, Bool.and_assoc]

theorem strict_evaluateCondition (call : PolicyCall) (now : Instant) {condition : Condition}
    (h : condition.EveryLeaf ValidLeaves) :
    Strict.evaluateCondition call now condition = some (evaluateCondition call now condition) := by
  induction h with
  | leaves h => exact strict_evaluateLeaves call now h
  | all h ih =>
      rw [Strict.evaluateCondition, strict_evaluateAll, allM_eq_some ih, evaluateCondition,
        evaluateAll_eq]
  | any h ih =>
      rw [Strict.evaluateCondition, strict_evaluateAny, anyM_eq_some ih, evaluateCondition,
        evaluateAny_eq]
  | not h ih =>
      rw [Strict.evaluateCondition, ih, evaluateCondition]
      rfl

/-- On a well formed policy resolution never falls back. -/
theorem WellFormed.strict_matching {engine : Engine} (h : WellFormed engine) (call : PolicyCall)
    (now : Instant) : Strict.matching engine call now = some (engine.matching call now) := by
  refine filterM_eq_some fun rule hrule => ?_
  rw [strict_ruleMatchesRule call (h.targetKeys rule hrule), Option.bind_eq_bind, Option.bind_some]
  cases ruleMatchesRule rule call with
  | true =>
      rw [if_pos rfl, Bool.true_and, evaluateAt]
      exact strict_evaluateCondition call now (h.leaves rule hrule)
  | false => rfl

/-- On a well formed policy no limit divides by zero. -/
theorem WellFormed.strict_checkAndConsume {engine : Engine} (h : WellFormed engine) {index : ℕ}
    {limit : RateLimit} (hlimit : engine.rateLimits.lookup index = some limit) (maxKeys : ℕ)
    (inner : StateInner) (key : RateLimitKey) (nowSeconds : ℕ) :
    Strict.checkAndConsume maxKeys inner key limit nowSeconds =
      some (checkAndConsume maxKeys inner key limit nowSeconds) := by
  have hpositive := (h.limits index limit hlimit).2.windowSeconds.1
  exact if_neg fun hzero => by omega

/-! ## What the parser builds is well formed

The parser's checks as the invariants of a rule, and then of the engine. -/

section

variable {rt : YamlRuntime}

theorem ValidLeaf.pattern {value : Yaml} (h : ValidLeaf rt (.string "args_match", value)) :
    ∃ pattern parsed, value = .string pattern ∧ parseArgsPattern pattern = .ok parsed := by
  generalize hentry : ((Yaml.string "args_match", value) : Yaml × Yaml) = entry at h
  cases h with
  | @argsMatch pattern parsed hunambiguous hparse =>
      obtain ⟨-, rfl⟩ := Prod.mk.inj hentry
      exact ⟨pattern, parsed, rfl, hparse⟩
  | pathPattern => simp at hentry
  | timeWindow => simp at hentry

theorem LeafValues.validLeaves {fields : Fields} {argsMatch pathPattern : Option String}
    {timeWindow : Option TimeWindow} (h : LeafValues rt fields argsMatch pathPattern timeWindow) :
    ValidLeaves argsMatch pathPattern timeWindow := by
  refine ⟨fun pattern hpattern => ?_, fun window hwindow => ?_⟩
  · rw [h.argsMatch, Option.mem_def, Option.bind_eq_some_iff] at hpattern
    obtain ⟨value, hlast, htext⟩ := hpattern
    obtain rfl := Yaml.asStr_eq_some.1 htext
    obtain ⟨text, parsed, htext, hparse⟩ := (h.valid _ (Fields.mem_of_last hlast)).pattern
    obtain rfl := Yaml.string.inj htext
    exact ⟨parsed, hparse⟩
  · have hrel := h.timeWindow
    obtain rfl := Option.mem_def.1 hwindow
    generalize fields.last "time_window" = value at hrel
    cases hrel with
    | some hvalid =>
        obtain ⟨-, -, -, -, hlt, -⟩ := hvalid
        exact hlt

theorem Denotes.everyLeaf {document : Yaml} {condition : Condition}
    (h : Denotes rt document condition) : condition.EveryLeaf ValidLeaves := by
  have hchildren : ∀ {items : List Yaml} {children : List Condition},
      items.length = children.length →
      (∀ item child, (item, child) ∈ items.zip children → child.EveryLeaf ValidLeaves) →
        ∀ child ∈ children, child.EveryLeaf ValidLeaves := by
    intro items children hlength hzip child hchild
    have hall : List.Forall₂ (fun _ child => child.EveryLeaf ValidLeaves) items children :=
      List.forall₂_iff_zip.2 ⟨hlength, fun hmem => hzip _ _ hmem⟩
    obtain ⟨index, hindex, rfl⟩ := List.getElem_of_mem hchild
    exact (List.forall₂_iff_get.1 hall).2 index (hlength ▸ hindex) hindex
  induction h with
  | leaves h => exact .leaves h.validLeaves
  | all hlength h ih => exact .all (hchildren hlength ih)
  | any hlength h ih => exact .any (hchildren hlength ih)
  | not h ih => exact .not ih

/-- What an accepted `condition` field is read as is well formed. -/
theorem parseConditions_wellFormed {document : Option Yaml} {condition : Condition}
    (h : parseConditions rt document = .ok condition) :
    (condition.levels ≤ 32 ∧ condition.nodes ≤ 128) ∧ condition.EveryLeaf ValidLeaves := by
  cases document with
  | none =>
      obtain rfl := Except.ok.inj h
      exact ⟨by simp [Condition.default, Condition.levels, Condition.nodes],
        .leaves ⟨by simp, by simp⟩⟩
  | some document =>
      obtain ⟨hdenotes, hlevels, hnodes⟩ := parseConditions_ok_iff.1 h
      exact ⟨⟨hlevels, hnodes⟩, hdenotes.everyLeaf⟩

theorem TargetField.key_known (field : TargetField) :
    field.key = "agent" ∨ field.key = "tool" ∨ field.key = "user" ∨
      "context.".toList <+: field.key.toList := by
  cases field with
  | agent => exact .inl rfl
  | tool => exact .inr (.inl rfl)
  | user => exact .inr (.inr (.inl rfl))
  | context key =>
      refine .inr (.inr (.inr ?_))
      rw [TargetField.key, String.toList_append]
      exact List.prefix_append _ _

variable {allowRateLimit : Bool} {entry : RuleEntry} {fields : Fields} {read : ReadRule}

theorem ReadsAs.limit_valid (h : ReadsAs rt allowRateLimit entry fields read) {limit : RateLimit}
    (hlimit : read.rateLimit = some limit) : limit.Valid := by
  rw [h.rateLimit, Option.bind_eq_some_iff] at hlimit
  obtain ⟨value, -, hparse⟩ := hlimit
  cases hvalue : parseRateLimit value with
  | error e => simp [hvalue, Except.toOption] at hparse
  | ok found =>
      rw [hvalue] at hparse
      obtain rfl := Option.some.inj hparse
      exact parseRateLimit_valid hvalue

theorem ReadsAs.rateLimit_eq_none (h : ReadsAs rt false entry fields read) :
    read.rateLimit = none := by
  have hlast : fields.last "rate_limit" = none := by
    rw [Fields.last_eq_none]
    intro field hfield hkey
    obtain ⟨name, hname, hknown, -⟩ := h.valid field hfield
    rw [hkey] at hname
    obtain rfl := Yaml.string.inj hname
    simp [ruleNames] at hknown
  rw [h.rateLimit, hlast]
  rfl

theorem ReadsAs.declaredId (h : ReadsAs rt allowRateLimit entry fields read) :
    entry.declaredId = read.id := by
  rw [RuleEntry.declaredId, h.value, Yaml.asMapping, Option.getD_some, h.id]

/-- An engine whose rules are read from entries is well formed. -/
theorem wellFormed_engineOf {entries : List RuleEntry} {reads : List ReadRule}
    (hreads : List.Forall₂ (fun entry read => readRule rt allowRateLimit entry = .ok read)
      entries reads) (version : ℤ) (defaultAction : Action) :
    WellFormed (engineOf reads version defaultAction) := by
  have hread : ∀ read ∈ reads, ∃ entry fields, ReadsAs rt allowRateLimit entry fields read := by
    intro read hmem
    obtain ⟨index, hindex, rfl⟩ := List.getElem_of_mem hmem
    obtain ⟨hlength, hall⟩ := List.forall₂_iff_get.1 hreads
    exact ⟨_, readRule_ok_iff.1 (hall index (hlength ▸ hindex) hindex)⟩
  have hrules : (engineOf reads version defaultAction).rules =
      reads.mapIdx (fun index read => read.rule index) := stateAfter_rules reads
  have hrule : ∀ rule ∈ (engineOf reads version defaultAction).rules,
      ∃ read ∈ reads, ∃ index, rule = read.rule index := by
    intro rule hmem
    rw [hrules] at hmem
    obtain ⟨index, hindex, rfl⟩ := List.mem_mapIdx.1 hmem
    exact ⟨_, List.getElem_mem _, index, rfl⟩
  constructor
  case numbered =>
    intro index rule hindex
    rw [hrules, List.getElem?_mapIdx, Option.map_eq_some_iff] at hindex
    obtain ⟨read, -, rfl⟩ := hindex
    rfl
  case targetKeys =>
    intro rule hmem key hkey
    obtain ⟨read, hmember, index, rfl⟩ := hrule rule hmem
    obtain ⟨entry, fields, h⟩ := hread read hmember
    obtain ⟨field, rfl⟩ := h.lookup.1 key hkey
    exact field.key_known
  case bounds =>
    intro rule hmem
    obtain ⟨read, hmember, index, rfl⟩ := hrule rule hmem
    obtain ⟨entry, fields, h⟩ := hread read hmember
    exact (parseConditions_wellFormed h.condition).1
  case leaves =>
    intro rule hmem
    obtain ⟨read, hmember, index, rfl⟩ := hrule rule hmem
    obtain ⟨entry, fields, h⟩ := hread read hmember
    exact (parseConditions_wellFormed h.condition).2
  case limits =>
    intro index limit hlimit
    have hlookup : (reads[index]?).bind ReadRule.rateLimit = some limit := by
      rw [← stateAfter_lookup]
      exact hlimit
    obtain ⟨read, hindex, hlimited⟩ := Option.bind_eq_some_iff.1 hlookup
    obtain ⟨entry, fields, h⟩ := hread read (List.mem_of_getElem? hindex)
    refine ⟨⟨read.rule index, ?_, h.limited (by rw [hlimited]; rfl)⟩, h.limit_valid hlimited⟩
    rw [hrules, List.getElem?_mapIdx, hindex]
    rfl

/-- The ids that the entries declare are those that are read. -/
theorem filterMap_declaredId {entries : List RuleEntry} {reads : List ReadRule}
    (hreads : List.Forall₂ (fun entry read => readRule rt allowRateLimit entry = .ok read)
      entries reads) : entries.filterMap RuleEntry.declaredId = declaredIds reads := by
  induction hreads with
  | nil => rfl
  | cons hread hrest ih =>
      obtain ⟨fields, h⟩ := readRule_ok_iff.1 hread
      rw [List.filterMap_cons, h.declaredId, ih, declaredIds, declaredIds, List.filterMap_cons]

/-- A document that cannot declare limits has none. -/
theorem rateLimits_engineOf {entries : List RuleEntry} {reads : List ReadRule}
    (hreads : List.Forall₂ (fun entry read => readRule rt false entry = .ok read)
      entries reads) (version : ℤ) (defaultAction : Action) :
    (engineOf reads version defaultAction).rateLimits = ∅ := by
  refine Finmap.ext_lookup fun index => ?_
  rw [Finmap.lookup_empty, engineOf, stateAfter_lookup, Option.bind_eq_none_iff]
  intro read hindex
  obtain ⟨hlt, rfl⟩ := List.getElem?_eq_some_iff.1 hindex
  obtain ⟨hlength, hall⟩ := List.forall₂_iff_get.1 hreads
  obtain ⟨fields, h⟩ := readRule_ok_iff.1 (hall index (hlength ▸ hlt) hlt)
  exact h.rateLimit_eq_none

theorem parseVersion_wellFormed {policy : Yaml} {version : ℤ} {engine : Engine}
    (h : parseVersion rt policy version allowRateLimit = .ok engine) :
    WellFormed engine ∧ ((ruleEntries policy).filterMap RuleEntry.declaredId).Nodup ∧
      (allowRateLimit = false → engine.rateLimits = ∅) := by
  obtain ⟨-, reads, hreads, hids, rfl⟩ := parseVersion_ok_iff_reads.1 h
  refine ⟨wellFormed_engineOf hreads _ _, ?_, ?_⟩
  · rw [filterMap_declaredId hreads]
    exact hids
  · rintro rfl
    exact rateLimits_engineOf hreads _ _

/-- **An accepted policy is well formed.**  Its rules are numbered, their targets, conditions and
limits are valid and no id is declared twice; so resolution never falls back on the answer for an
unknown target key or an invalid pattern, and no limit divides by zero. -/
theorem accepted_wellFormed {policy : Yaml} {engine : Engine}
    (h : parseV1 rt policy = .ok engine ∨ parseV2 rt policy = .ok engine) :
    WellFormed engine ∧ ((ruleEntries policy).filterMap RuleEntry.declaredId).Nodup ∧
      (parseV1 rt policy = .ok engine → engine.rateLimits = ∅) ∧
      (∀ call now, Strict.matching engine call now = some (engine.matching call now)) ∧
      ∀ index limit, engine.rateLimits.lookup index = some limit →
        ∀ maxKeys inner key nowSeconds,
          Strict.checkAndConsume maxKeys inner key limit nowSeconds =
            some (checkAndConsume maxKeys inner key limit nowSeconds) := by
  have hboth : WellFormed engine ∧
      ((ruleEntries policy).filterMap RuleEntry.declaredId).Nodup := by
    rcases h with h | h
    · exact ⟨(parseVersion_wellFormed h).1, (parseVersion_wellFormed h).2.1⟩
    · exact ⟨(parseVersion_wellFormed h).1, (parseVersion_wellFormed h).2.1⟩
  obtain ⟨hengine, hids⟩ := hboth
  exact ⟨hengine, hids, fun hfirst => (parseVersion_wellFormed hfirst).2.2 rfl,
    hengine.strict_matching, fun index limit hlimit => hengine.strict_checkAndConsume hlimit⟩

/-- A policy with a limited rule in a scope and a rule with a condition. -/
def scopedPolicy : Yaml :=
  .mapping [
    (.string "version", .int 2),
    (.string "agents", .mapping [(.string "builder", .mapping [(.string "tools", .mapping [
      (.string "shell", .mapping [(.string "rules", .sequence [.mapping [
        (.string "id", .string "build"),
        (.string "action", .string "allow"),
        (.string "rate_limit", .mapping [
          (.string "max_calls", .int 5), (.string "window_seconds", .int 60)])]])])])])]),
    (.string "rules", .sequence [.mapping [
      (.string "id", .string "secrets"),
      (.string "action", .string "deny"),
      (.string "condition", .mapping [(.string "path_pattern", .string "/secrets/*")])]])]

theorem accepted_wellFormed_sample :
    let rt : YamlRuntime := ⟨fun _ => "", fun _ => none⟩
    ∃ engine, parseV2 rt scopedPolicy = .ok engine ∧ WellFormed engine ∧
      ((ruleEntries scopedPolicy).filterMap RuleEntry.declaredId).Nodup ∧
      (parseV1 rt scopedPolicy = .ok engine → engine.rateLimits = ∅) ∧
      (∀ call now, Strict.matching engine call now = some (engine.matching call now)) ∧
      ∀ index limit, engine.rateLimits.lookup index = some limit →
        ∀ maxKeys inner key nowSeconds,
          Strict.checkAndConsume maxKeys inner key limit nowSeconds =
            some (checkAndConsume maxKeys inner key limit nowSeconds) := by
  intro rt
  have hparse : ∃ engine, parseV2 rt scopedPolicy = .ok engine := ⟨_, rfl⟩
  obtain ⟨engine, hparse⟩ := hparse
  exact ⟨engine, hparse, accepted_wellFormed (.inr hparse)⟩

end

end HpGuardian

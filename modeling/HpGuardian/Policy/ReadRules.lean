import HpGuardian.Policy.RuleEntries
import HpGuardian.Policy.Accepted

/-!
# What is read from a rule entry

`add_rule` reads an entry without looking at the rules before it, and only then checks the rule's
id against the ids so far and gives it the next index.  `readRule` is the first part, a function of
the entry alone; `ReadsAs` describes it field by field, each from the last value under its key.

So a list of entries is accepted iff each can be read by itself and no id is declared twice, and
the engine is built from what was read, with positions for indices (`engineOf`).
`parseVersion_ok_iff_reads` says this for whole documents.  It is what theorems about accepted
documents start from: an entry of the document, what is read of it, and the rule at its position,
with no parser state between them.
-/

namespace HpGuardian

open Framework

/-! ## One entry

Reading an entry, and adding what was read. -/

/-- What is read from a rule entry, before it gets its index: the target is the one with the
enclosing agent and tool added. -/
structure ReadRule where
  action : Action
  target : StringMap
  condition : Condition
  id : Option String
  rateLimit : Option RateLimit

/-- The rule at a position. -/
def ReadRule.rule (read : ReadRule) (index : ℕ) : Rule :=
  ⟨read.action, read.target, read.condition, index⟩

/-- The part of `add_rule` that does not look at the state. -/
def readRule (rt : YamlRuntime) (allowRateLimit : Bool) (entry : RuleEntry) :
    Except PolicyError ReadRule := do
  let fields ← mappingOf entry.value "rule"
  let rule ← fields.foldlM (ruleField rt allowRateLimit) ⟨none, none, none, none, none⟩
  let action ← okOr rule.action (.invalidAction "missing rule.action")
  let action ← parseAction action
  if rule.rateLimit.isSome ∧ action ≠ .allow then
    .error (.invalidField "rate_limit is permitted only on an allow rule")
  else
    let target ← parseTarget rule.target
    let target ← entry.enclosingTarget.foldlM addEnclosingTarget target
    let condition ← parseConditions rt rule.condition
    .ok ⟨action, target, condition, rule.id, rule.rateLimit⟩

/-- The state after one more rule. -/
def ParseState.addRead (state : ParseState) (read : ReadRule) : ParseState where
  rules := state.rules ++ [read.rule state.index]
  ruleIds := match read.id with
    | some id => insert id state.ruleIds
    | none => state.ruleIds
  index := state.index + 1
  rateLimits := match read.rateLimit with
    | some rateLimit => state.rateLimits.insert state.index rateLimit
    | none => state.rateLimits

section

variable {rt : YamlRuntime} {allowRateLimit : Bool} {state state' : ParseState}

theorem insertRuleId_ok_iff {ruleIds ruleIds' : Finset String} {id : Option String} :
    insertRuleId ruleIds id = .ok ruleIds' ↔
      (∀ i ∈ id, i ∉ ruleIds) ∧
        ruleIds' = match id with | some i => insert i ruleIds | none => ruleIds := by
  cases id with
  | none => simp [insertRuleId, eq_comm]
  | some i =>
      by_cases hi : i ∈ ruleIds
      · simp [insertRuleId, hi]
      · simp [insertRuleId, hi, eq_comm]

/-- `add_rule` reads the entry, checks its id and adds the rule. -/
theorem addEntry_ok_iff {entry : RuleEntry} :
    addEntry rt allowRateLimit state entry = .ok state' ↔
      ∃ read, readRule rt allowRateLimit entry = .ok read ∧
        (∀ id ∈ read.id, id ∉ state.ruleIds) ∧ state' = state.addRead read := by
  unfold addEntry addRule readRule
  simp only [bind_ok_iff]
  constructor
  · rintro ⟨fields, hfields, rule, hrule, name, hname, ruleIds, hids, action, haction, hrun⟩
    obtain ⟨hnew, rfl⟩ := insertRuleId_ok_iff.1 hids
    split at hrun
    · cases hrun
    · rename_i hlimited
      simp only [bind_ok_iff] at hrun
      obtain ⟨own, hown, target, htarget, condition, hcondition, hstate⟩ := hrun
      obtain rfl := Except.ok.inj hstate
      refine ⟨⟨action, target, condition, rule.id, rule.rateLimit⟩,
        ⟨fields, hfields, rule, hrule, name, hname, action, haction, ?_⟩, hnew, rfl⟩
      rw [if_neg hlimited]
      simp only [bind_ok_iff]
      exact ⟨own, hown, target, htarget, condition, hcondition, rfl⟩
  · rintro ⟨read, ⟨fields, hfields, rule, hrule, name, hname, action, haction, hrun⟩, hnew, rfl⟩
    split at hrun
    · cases hrun
    · rename_i hlimited
      simp only [bind_ok_iff] at hrun
      obtain ⟨own, hown, target, htarget, condition, hcondition, hread⟩ := hrun
      obtain rfl := Except.ok.inj hread
      refine ⟨fields, hfields, rule, hrule, name, hname, _, insertRuleId_ok_iff.2 ⟨hnew, rfl⟩,
        action, haction, ?_⟩
      rw [if_neg hlimited]
      simp only [bind_ok_iff]
      exact ⟨own, hown, target, htarget, condition, hcondition, rfl⟩

/-- How the fields of an entry are read. Of a field that occurs several times the last occurrence
counts, and only an allow rule has a rate limit. -/
structure ReadsAs (rt : YamlRuntime) (allowRateLimit : Bool) (entry : RuleEntry) (fields : Fields)
    (read : ReadRule) : Prop where
  value : entry.value = .mapping fields
  valid : ∀ field ∈ fields, RuleFieldValid allowRateLimit field
  action : ∃ name, fields.last "action" = some (.string name) ∧ parseAction name = .ok read.action
  target : ∃ target, parseTarget (fields.last "target") = .ok target ∧
    entry.enclosingTarget.foldlM addEnclosingTarget target = .ok read.target
  condition : parseConditions rt (fields.last "condition") = .ok read.condition
  id : read.id = (fields.last "id").bind Yaml.asStr
  rateLimit : read.rateLimit =
    (fields.last "rate_limit").bind (fun value => (parseRateLimit value).toOption)
  limited : read.rateLimit.isSome → read.action = .allow

/-- An entry is read field by field, each from its last value. -/
theorem readRule_ok_iff {entry : RuleEntry} {read : ReadRule} :
    readRule rt allowRateLimit entry = .ok read ↔
      ∃ fields, ReadsAs rt allowRateLimit entry fields read := by
  unfold readRule
  simp only [bind_ok_iff, mappingOf_ok, ruleFields_ok_iff_last, okOr_ok]
  constructor
  · rintro ⟨fields, hvalue, -, ⟨hvalid, rfl⟩, name, hname, action, haction, hrun⟩
    split at hrun
    · cases hrun
    · rename_i hlimited
      simp only [bind_ok_iff] at hrun
      obtain ⟨own, hown, target, htarget, condition, hcondition, hread⟩ := hrun
      obtain rfl := Except.ok.inj hread
      obtain ⟨value, hlast, htext⟩ := Option.bind_eq_some_iff.1 hname
      obtain rfl := Yaml.asStr_eq_some.1 htext
      refine ⟨fields, hvalue, hvalid, ⟨name, hlast, haction⟩, ⟨own, hown, htarget⟩, hcondition, rfl,
        rfl, fun hlimit => ?_⟩
      by_contra haction
      exact hlimited ⟨hlimit, haction⟩
  · rintro ⟨fields, h⟩
    obtain ⟨name, hlast, haction⟩ := h.action
    obtain ⟨own, hown, htarget⟩ := h.target
    obtain ⟨action, target, condition, id, rateLimit⟩ := read
    refine ⟨fields, h.value, _, ⟨h.valid, rfl⟩, name, ?_, action, haction, ?_⟩
    · rw [RuleFields.ofFields, hlast, Option.bind_some, Yaml.asStr]
    · have hid : id = (RuleFields.ofFields fields).id := h.id
      have hrate : rateLimit = (RuleFields.ofFields fields).rateLimit := h.rateLimit
      have hlimited := h.limited
      dsimp only at hlimited
      rw [hrate] at hlimited
      rw [if_neg fun hboth => hboth.2 (hlimited hboth.1)]
      simp only [bind_ok_iff]
      exact ⟨own, hown, target, htarget, condition, h.condition, by rw [hid, hrate]⟩

/-! ## All entries

The state after a list of entries, and the engine. -/

/-- The ids that are declared. -/
def declaredIds (reads : List ReadRule) : List String := reads.filterMap ReadRule.id

/-- The state after the given rules. -/
def stateAfter (reads : List ReadRule) : ParseState := reads.foldl ParseState.addRead .empty

theorem stateAfter_concat (reads : List ReadRule) (read : ReadRule) :
    stateAfter (reads ++ [read]) = (stateAfter reads).addRead read := by
  rw [stateAfter, List.foldl_append, List.foldl_cons, List.foldl_nil, stateAfter]

theorem stateAfter_index (reads : List ReadRule) : (stateAfter reads).index = reads.length := by
  induction reads using List.reverseRecOn with
  | nil => rfl
  | append_singleton reads read ih =>
      rw [stateAfter_concat, List.length_append, List.length_singleton, ← ih, ParseState.addRead]

/-- Every rule has its position as its index. -/
theorem stateAfter_rules (reads : List ReadRule) :
    (stateAfter reads).rules = reads.mapIdx (fun index read => read.rule index) := by
  induction reads using List.reverseRecOn with
  | nil => rfl
  | append_singleton reads read ih =>
      rw [stateAfter_concat, ParseState.addRead, ih, stateAfter_index, List.mapIdx_append]
      simp

theorem mem_stateAfter_ruleIds (reads : List ReadRule) (id : String) :
    id ∈ (stateAfter reads).ruleIds ↔ id ∈ declaredIds reads := by
  induction reads using List.reverseRecOn with
  | nil => simp [stateAfter, ParseState.empty, declaredIds]
  | append_singleton reads read ih =>
      rw [stateAfter_concat, ParseState.addRead, declaredIds, List.filterMap_append,
        List.mem_append, ← declaredIds, ← ih]
      cases hid : read.id with
      | none => simp [hid]
      | some i => simp [hid, or_comm]

/-- A rule is limited as its entry says. -/
theorem stateAfter_lookup (reads : List ReadRule) (index : ℕ) :
    (stateAfter reads).rateLimits.lookup index = (reads[index]?).bind ReadRule.rateLimit := by
  induction reads using List.reverseRecOn with
  | nil => simp [stateAfter, ParseState.empty]
  | append_singleton reads read ih =>
      rw [stateAfter_concat, ParseState.addRead, stateAfter_index]
      rcases lt_trichotomy index reads.length with hlt | rfl | hgt
      · rw [List.getElem?_append_left hlt, ← ih]
        cases read.rateLimit with
        | none => rfl
        | some rateLimit => exact Finmap.lookup_insert_of_ne _ hlt.ne
      · rw [List.getElem?_concat_length, Option.bind_some]
        cases read.rateLimit with
        | none =>
            rw [List.getElem?_eq_none le_rfl] at ih
            exact ih
        | some rateLimit => exact Finmap.lookup_insert _
      · rw [List.getElem?_eq_none (by simp; omega)]
        rw [List.getElem?_eq_none hgt.le] at ih
        cases read.rateLimit with
        | none => exact ih
        | some rateLimit => exact (Finmap.lookup_insert_of_ne _ hgt.ne').trans ih

/-- The entries are accepted one after the other iff each can be read and no id comes twice. -/
theorem foldlM_addEntry_ok_iff {entries : List RuleEntry} :
    entries.foldlM (addEntry rt allowRateLimit) .empty = .ok state ↔
      ∃ reads, List.Forall₂ (fun entry read => readRule rt allowRateLimit entry = .ok read)
          entries reads ∧ (declaredIds reads).Nodup ∧ state = stateAfter reads := by
  induction entries using List.reverseRecOn generalizing state with
  | nil =>
      simp only [List.foldlM_nil, List.forall₂_nil_left_iff, exists_eq_left]
      exact ⟨fun h => ⟨List.nodup_nil, (Except.ok.inj h).symm⟩, fun h => by rw [h.2]; rfl⟩
  | append_singleton entries entry ih =>
      rw [List.foldlM_append, bind_ok_iff]
      simp only [ih, List.foldlM_cons, bind_ok_iff, List.foldlM_nil, addEntry_ok_iff]
      have hnodup : ∀ reads read, (declaredIds (reads ++ [read])).Nodup ↔
          (declaredIds reads).Nodup ∧ ∀ id ∈ read.id, id ∉ (stateAfter reads).ruleIds := by
        intro reads read
        rw [declaredIds, List.filterMap_append, List.nodup_append, ← declaredIds]
        simp only [mem_stateAfter_ruleIds]
        cases hid : read.id with
        | none => simp [hid]
        | some i =>
            simp only [List.filterMap_cons, hid, List.filterMap_nil, List.nodup_cons,
              List.not_mem_nil, not_false_iff, List.nodup_nil, List.mem_singleton, true_and,
              forall_eq, Option.mem_def, Option.some.injEq, forall_eq']
            exact and_congr_right fun _ =>
              ⟨fun h hmem => h i hmem rfl, fun h a ha hai => h (hai ▸ ha)⟩
      constructor
      · rintro ⟨-, ⟨reads, hreads, hids, rfl⟩, state₁, ⟨read, hread, hnew, rfl⟩, hstate⟩
        obtain rfl := Except.ok.inj hstate
        exact ⟨reads ++ [read], List.rel_append hreads (.cons hread .nil),
          (hnodup reads read).2 ⟨hids, hnew⟩, (stateAfter_concat reads read).symm⟩
      · rintro ⟨reads, hreads, hids, rfl⟩
        rw [← List.forall₂_reverse_iff, List.reverse_append, List.reverse_singleton,
          List.singleton_append, List.forall₂_cons_left_iff] at hreads
        obtain ⟨read, rest, hread, hrest, hreverse⟩ := hreads
        obtain rfl : reads = rest.reverse ++ [read] := by
          rw [← List.reverse_reverse reads, hreverse, List.reverse_cons]
        obtain ⟨hids, hnew⟩ := (hnodup _ _).1 hids
        refine ⟨_, ⟨rest.reverse, ?_, hids, rfl⟩, _, ⟨read, hread, hnew, rfl⟩, ?_⟩
        · rwa [← List.forall₂_reverse_iff, List.reverse_reverse]
        · rw [stateAfter_concat]
          rfl

/-- The engine built from what is read. -/
def engineOf (reads : List ReadRule) (version : ℤ) (defaultAction : Action) : Engine :=
  ⟨(stateAfter reads).rules, (stateAfter reads).rateLimits, version, defaultAction⟩

/-- **Reading a document.**  A document is accepted iff it has the right shape around its rule
entries, each entry can be read by itself and no id is declared twice. -/
theorem parseVersion_ok_iff_reads {policy : Yaml} {version : ℤ} {engine : Engine} :
    parseVersion rt policy version allowRateLimit = .ok engine ↔
      Shaped rt policy ∧ ∃ reads,
        List.Forall₂ (fun entry read => readRule rt allowRateLimit entry = .ok read)
          (ruleEntries policy) reads ∧ (declaredIds reads).Nodup ∧
        engine = engineOf reads version (declaredDefault rt policy) := by
  rw [parseVersion_ok_iff]
  refine and_congr_right (fun _ => ?_)
  simp only [foldlM_addEntry_ok_iff]
  constructor
  · rintro ⟨state, ⟨reads, hreads, hids, rfl⟩, rfl⟩
    exact ⟨reads, hreads, hids, rfl⟩
  · rintro ⟨reads, hreads, hids, rfl⟩
    exact ⟨_, ⟨reads, hreads, hids, rfl⟩, rfl⟩

end

end HpGuardian

import HpGuardian.Parity.Patterns
import HpGuardian.Policy.Engine

/-!
# The two engines decide alike

`SameRule` relates a rule of the Rust engine to the rule of the Python engine that the parsers
build from the same document.  On related rules the Python engine raises nothing and resolves every
call, at every instant, as the Rust engine does.

The two engines are organized alike: match the target, evaluate the condition, collect the matching
rules, and select one of them by specificity, action and order.  They are written for different
data.  A target is a struct with optional fields or a dictionary of strings, a condition an
enumeration or a nested dictionary that is dispatched on by its keys, and the Python evaluation can
raise where a dictionary lacks a key.  So each stage has a lemma which says that the Python
function returns, and returns what the Rust function returns on the related value.

The selection is a loop over candidates in both.  What has to be shown of it is that related rules
compare alike, so that the two loops replace their candidates at the same rules
(`betterRule_related`).
-/

namespace HpGuardian

open Framework

/-! ## The same rule in both runtimes

What the parsers build from one document, related part by part. -/

section

-- the timestamp parser that both runtimes use
variable (utcTimestamp : String → Option Instant)

/-- The leaves of a condition mapping: the same patterns, which the parsers accepted, and a time
window that reads as the same pair of instants. -/
structure SameLeaves (argsPattern pathPattern : Option String) (timeWindow : Option TimeWindow)
    (entries : List (String × Python.Operand)) : Prop where
  nodup : (entries.map Prod.fst).Nodup
  keys : ∀ entry ∈ entries, entry.1 ∈ ["args_match", "path_pattern", "time_window"]
  argsMatch : entries.lookup "args_match" = argsPattern.map Python.Operand.text
  accepted : ∀ pattern ∈ argsPattern, ∃ parsed, parseArgsPattern pattern = .ok parsed
  pathPattern : entries.lookup "path_pattern" = pathPattern.map Python.Operand.text
  timeWindow : Option.Rel
    (fun operand window => ∃ value, operand = .window value ∧
      Python.parseTimeWindow utcTimestamp value = .ok (window.start, window.stop))
    (entries.lookup "time_window") timeWindow

/-- The same condition tree: an enumeration in one runtime, a dictionary in the other. A
composition is a dictionary with one key. -/
inductive SameCondition : Condition → Python.Condition → Prop
  | leaves {a p t entries} (h : SameLeaves utcTimestamp a p t entries) :
      SameCondition (.leaves a p t) (.dict entries)
  | all {cs ds} (h : List.Forall₂ SameCondition cs ds) :
      SameCondition (.all cs) (.dict [("all", .nodes ds)])
  | any {cs ds} (h : List.Forall₂ SameCondition cs ds) :
      SameCondition (.any cs) (.dict [("any", .nodes ds)])
  | not {c d} (h : SameCondition c d) : SameCondition (.not c) (.dict [("not", .node d)])

/-- The same rule: action, target, condition tree and index. What else a rule had in its document,
such as its id, is used while parsing only. -/
structure SameRule (rust : Rule) (python : Python.Rule) : Prop where
  action : python.action = rust.action
  target : python.target = rust.target
  condition : SameCondition utcTimestamp rust.condition python.condition
  ruleIndex : python.ruleIndex = rust.ruleIndex

/-- The same engine: the rules in order, the default action, the limits and the version. Related
engines decide alike. -/
structure SameEngine (rust : Engine) (python : Python.Engine) : Prop where
  rules : List.Forall₂ (SameRule utcTimestamp) rust.rules python.rules
  defaultAction : python.defaultAction = rust.defaultAction
  rateLimits : python.rateLimits = rust.rateLimits
  version : python.version = rust.version

end

/-! ## Targets

A target entry matches the same calls in both runtimes, and counts the same for specificity. -/

theorem python_removeContextPrefix (key : String) :
    Python.removeContextPrefix key = stripContextPrefix key := by
  simp only [Python.removeContextPrefix, stripContextPrefix, List.isPrefixOf_iff_prefix]

theorem python_targetEntryMatches (call : PolicyCall) (key value : String) :
    Python.targetEntryMatches call key value = targetEntryMatches call key value := by
  have hfield : ∀ field : Option String, (some value == field) = callFieldIs field value := by
    intro field
    cases field with
    | none => rfl
    | some callValue => simp [callFieldIs, eq_comm]
  unfold Python.targetEntryMatches targetEntryMatches
  cases hstrip : stripContextPrefix key <;>
    simp only [hfield, python_removeContextPrefix, hstrip]

section

variable {utcTimestamp : String → Option Instant} {rust : Rule} {python : Python.Rule}

theorem SameRule.ruleMatchesRule (h : SameRule utcTimestamp rust python) (call : PolicyCall) :
    Python.ruleMatchesRule python call = HpGuardian.ruleMatchesRule rust call := by
  unfold Python.ruleMatchesRule HpGuardian.ruleMatchesRule
  have hentry : Python.targetEntryMatches call = targetEntryMatches call :=
    funext fun key => funext fun value => python_targetEntryMatches call key value
  rw [h.target, hentry]

theorem SameRule.ruleSpecificity (h : SameRule utcTimestamp rust python) :
    Python.ruleSpecificity python = HpGuardian.ruleSpecificity rust := by
  rw [Python.ruleSpecificity, HpGuardian.ruleSpecificity, h.target]

end

/-! ## Conditions

Leaves first, by the key of each; then compositions, by induction on the condition tree. -/

section

variable {utcTimestamp : String → Option Instant} (call : PolicyCall) (now : Instant)

/-- The loop over the leaves, when every leaf has an answer. -/
theorem evaluateLeaves_ok (answer : String × Python.Operand → Bool)
    {entries : List (String × Python.Operand)}
    (hleaf : ∀ entry ∈ entries, Python.evaluateLeaf utcTimestamp call now entry =
      .ok (answer entry)) :
    Python.evaluateLeaves utcTimestamp call now entries = .ok (entries.all answer) := by
  induction entries with
  | nil => rfl
  | cons entry entries ih =>
      obtain ⟨hentry, hentries⟩ := List.forall_mem_cons.1 hleaf
      rw [Python.evaluateLeaves, hentry]
      cases hanswer : answer entry with
      | true => simpa [bind, Except.bind, hanswer] using ih hentries
      | false => simp [bind, Except.bind, hanswer]

/-- The entry of a dictionary is what its key looks up. -/
theorem lookup_eq_of_mem {entries : List (String × Python.Operand)}
    (hnodup : (entries.map Prod.fst).Nodup) {entry : String × Python.Operand}
    (hentry : entry ∈ entries) : entries.lookup entry.1 = some entry.2 := by
  induction entries with
  | nil => simp at hentry
  | cons head entries ih =>
      rw [List.map_cons, List.nodup_cons] at hnodup
      rcases List.mem_cons.1 hentry with rfl | hentry
      · exact List.lookup_cons_self
      · have hne : entry.1 ≠ head.1 :=
          fun h => hnodup.1 (h ▸ List.mem_map_of_mem hentry)
        rw [List.lookup_cons, beq_false_of_ne hne]
        exact ih hnodup.2 hentry

/-- What the leaf with a given key answers; an absent leaf does not constrain the call. -/
def leafAnswer (argsPattern pathPattern : Option String) (timeWindow : Option TimeWindow)
    (key : String) : Bool :=
  if key = "args_match" then
    argsPattern.all (fun pattern => argsMatch (" ".intercalate call.args) pattern)
  else if key = "path_pattern" then
    pathPattern.all (fun pattern => call.args.any (fun argument => pathMatches pattern argument))
  else
    timeWindow.all (fun window => decide (window.start ≤ now) && decide (now < window.stop))

variable {a p : Option String} {t : Option TimeWindow}
  {entries : List (String × Python.Operand)}

theorem SameLeaves.evaluateLeaf (h : SameLeaves utcTimestamp a p t entries)
    {entry : String × Python.Operand} (hentry : entry ∈ entries) :
    Python.evaluateLeaf utcTimestamp call now entry =
      .ok (leafAnswer call now a p t entry.1) := by
  have hlookup := lookup_eq_of_mem h.nodup hentry
  obtain ⟨key, operand⟩ := entry
  dsimp only at hlookup ⊢
  have hkey := h.keys _ hentry
  simp only [List.mem_cons, List.not_mem_nil, or_false] at hkey
  rcases hkey with rfl | rfl | rfl
  · obtain ⟨pattern, rfl, rfl⟩ := Option.map_eq_some_iff.1 (h.argsMatch.symm.trans hlookup)
    obtain ⟨parsed, hparsed⟩ := h.accepted pattern rfl
    exact python_argsMatch call.args hparsed
  · obtain ⟨pattern, rfl, rfl⟩ := Option.map_eq_some_iff.1 (h.pathPattern.symm.trans hlookup)
    simp [Python.evaluateLeaf, leafAnswer, python_pathMatches]
  · have hwindow := h.timeWindow
    rw [hlookup] at hwindow
    cases hwindow with
    | some hwindow =>
        obtain ⟨value, rfl, hparsed⟩ := hwindow
        simp [Python.evaluateLeaf, leafAnswer, hparsed]

/-- The leaves of the two representations answer alike. -/
theorem SameLeaves.evaluateLeaves (h : SameLeaves utcTimestamp a p t entries) :
    Python.evaluateLeaves utcTimestamp call now entries =
      .ok (evaluateCondition call now (.leaves a p t)) := by
  rw [evaluateLeaves_ok call now (fun entry => leafAnswer call now a p t entry.1)
    (fun entry hentry => h.evaluateLeaf call now hentry)]
  have hconj : evaluateCondition call now (.leaves a p t) =
      (leafAnswer call now a p t "args_match" && leafAnswer call now a p t "path_pattern" &&
        leafAnswer call now a p t "time_window") := by
    simp [evaluateCondition, leafAnswer]
  rw [hconj]
  refine congrArg Except.ok (Bool.eq_iff_iff.2 ?_)
  simp only [List.all_eq_true, Bool.and_eq_true]
  constructor
  · intro hall
    -- a leaf is an entry, or it is absent and answers true
    have hleaf : ∀ key, (entries.lookup key = none → leafAnswer call now a p t key = true) →
        leafAnswer call now a p t key = true := by
      intro key habsent
      cases hlookup : entries.lookup key with
      | none => exact habsent hlookup
      | some operand =>
          obtain ⟨l₁, l₂, rfl, -⟩ := List.lookup_eq_some_iff.1 hlookup
          exact hall (key, operand) (by simp)
    refine ⟨⟨hleaf _ fun hnone => ?_, hleaf _ fun hnone => ?_⟩, hleaf _ fun hnone => ?_⟩
    · rw [h.argsMatch, Option.map_eq_none_iff] at hnone
      simp [leafAnswer, hnone]
    · rw [h.pathPattern, Option.map_eq_none_iff] at hnone
      simp [leafAnswer, hnone]
    · have hwindow := h.timeWindow
      rw [hnone] at hwindow
      cases hwindow
      simp [leafAnswer]
  · rintro ⟨⟨hargs, hpath⟩, hwindow⟩ entry hentry
    have hkey := h.keys entry hentry
    simp only [List.mem_cons, List.not_mem_nil, or_false] at hkey
    rcases hkey with hkey | hkey | hkey <;> rw [hkey] <;> assumption

/-- The leaves of a condition mapping are no composition. -/
theorem SameLeaves.lookup_operator (h : SameLeaves utcTimestamp a p t entries) {operator : String}
    (hoperator : operator ∉ ["args_match", "path_pattern", "time_window"]) :
    entries.lookup operator = none := by
  rw [List.lookup_eq_none_iff]
  intro entry hentry
  rw [bne_iff_ne]
  rintro rfl
  exact hoperator (h.keys entry hentry)

/-- A composition evaluates its children, which answer alike by induction. -/
theorem evaluateAll_ok {cs : List Condition} {ds : List Python.Condition}
    (h : List.Forall₂ (SameCondition utcTimestamp) cs ds)
    (ih : ∀ c ∈ cs, ∀ d, SameCondition utcTimestamp c d →
      Python.evaluateCondition utcTimestamp call now d = .ok (evaluateCondition call now c)) :
    Python.evaluateAll utcTimestamp call now ds = .ok (evaluateAll call now cs) := by
  induction h with
  | nil => simp [Python.evaluateAll]
  | cons hhead _ ihtail =>
      obtain ⟨ihhead, ihrest⟩ := List.forall_mem_cons.1 ih
      rw [Python.evaluateAll, ihhead _ hhead, evaluateAll]
      cases evaluateCondition call now _ with
      | true => simpa [bind, Except.bind] using ihtail ihrest
      | false => simp [bind, Except.bind]

theorem evaluateAny_ok {cs : List Condition} {ds : List Python.Condition}
    (h : List.Forall₂ (SameCondition utcTimestamp) cs ds)
    (ih : ∀ c ∈ cs, ∀ d, SameCondition utcTimestamp c d →
      Python.evaluateCondition utcTimestamp call now d = .ok (evaluateCondition call now c)) :
    Python.evaluateAny utcTimestamp call now ds = .ok (evaluateAny call now cs) := by
  induction h with
  | nil => simp [Python.evaluateAny]
  | cons hhead _ ihtail =>
      obtain ⟨ihhead, ihrest⟩ := List.forall_mem_cons.1 ih
      rw [Python.evaluateAny, ihhead _ hhead, evaluateAny]
      cases evaluateCondition call now _ with
      | true => simp [bind, Except.bind]
      | false => simpa [bind, Except.bind] using ihtail ihrest

/-- `_evaluate_condition` as a dispatch on the keys of the dictionary. -/
theorem python_evaluateCondition_dict (entries : List (String × Python.Operand)) :
    Python.evaluateCondition utcTimestamp call now (.dict entries) =
      match entries.lookup "all", entries.lookup "any", entries.lookup "not" with
      | some (.nodes children), _, _ => Python.evaluateAll utcTimestamp call now children
      | none, some (.nodes children), _ => Python.evaluateAny utcTimestamp call now children
      | none, none, some (.node child) =>
          (Python.evaluateCondition utcTimestamp call now child).map (!·)
      | none, none, none => Python.evaluateLeaves utcTimestamp call now entries
      | _, _, _ => .error .typeError := by
  rw [Python.evaluateCondition]
  split
  · next children hall => simp only [hall]
  · next operand hnodes hall => cases operand <;> simp_all
  · next hall =>
      rw [hall]
      split
      · next children hany => simp only [hany]
      · next operand hnodes hany => cases operand <;> simp_all
      · next hany =>
          rw [hany]
          split
          · next child hnot =>
              simp only [hnot]
              rfl
          · next operand hnode hnot => cases operand <;> simp_all
          · next hnot => rw [hnot]

/-- The two condition evaluators answer alike, and the Python one raises nothing. -/
theorem SameCondition.evaluateCondition {c : Condition} {d : Python.Condition}
    (h : SameCondition utcTimestamp c d) :
    Python.evaluateCondition utcTimestamp call now d =
      .ok (HpGuardian.evaluateCondition call now c) := by
  induction c using Condition.induction generalizing d with
  | leaves a p t =>
      cases h with
      | leaves h =>
          rw [python_evaluateCondition_dict, h.lookup_operator (by decide),
            h.lookup_operator (by decide), h.lookup_operator (by decide)]
          exact h.evaluateLeaves call now
  | all cs ih =>
      cases h with
      | all h =>
          rw [python_evaluateCondition_dict, HpGuardian.evaluateCondition]
          exact evaluateAll_ok call now h (fun c hc d hcd => ih c hc hcd)
  | any cs ih =>
      cases h with
      | any h =>
          rw [python_evaluateCondition_dict, HpGuardian.evaluateCondition]
          exact evaluateAny_ok call now h (fun c hc d hcd => ih c hc hcd)
  | not c ih =>
      cases h with
      | not h =>
          rw [python_evaluateCondition_dict, HpGuardian.evaluateCondition]
          exact congrArg (Except.map (!·)) (ih h)

end

/-! ## Resolution

The matching rules, the rule that is selected among them, and the decision. -/

section

variable {utcTimestamp : String → Option Instant}

theorem SameRule.evaluate {rust : Rule} {python : Python.Rule}
    (h : SameRule utcTimestamp rust python) (call : PolicyCall) (now : Instant) :
    Python.evaluate utcTimestamp python call now = .ok (evaluateAt rust call now) :=
  h.condition.evaluateCondition call now

/-- The matching rules are related pairwise, in declaration order. -/
theorem matchingRules_ok {rules : List Rule} {pythonRules : List Python.Rule}
    (h : List.Forall₂ (SameRule utcTimestamp) rules pythonRules) (call : PolicyCall)
    (now : Instant) :
    ∃ matched, Python.matchingRules utcTimestamp call now pythonRules = .ok matched ∧
      List.Forall₂ (SameRule utcTimestamp)
        (rules.filter (fun rule => ruleMatchesRule rule call && evaluateAt rule call now))
        matched := by
  induction h with
  | nil => exact ⟨[], rfl, .nil⟩
  | @cons rust python rules pythonRules hrule _ ih =>
      obtain ⟨matched, hmatched, hrelated⟩ := ih
      rw [Python.matchingRules, hrule.ruleMatchesRule call]
      cases htarget : ruleMatchesRule rust call with
      | false =>
          refine ⟨matched, by simpa using hmatched, ?_⟩
          rwa [List.filter_cons_of_neg (by simp [htarget])]
      | true =>
          rw [hrule.evaluate call now, hmatched]
          cases hcondition : evaluateAt rust call now with
          | false =>
              refine ⟨matched, rfl, ?_⟩
              rwa [List.filter_cons_of_neg (by simp [hcondition])]
          | true =>
              refine ⟨python :: matched, rfl, ?_⟩
              rw [List.filter_cons_of_pos (by simp [htarget, hcondition])]
              exact .cons hrule hrelated

theorem map_ruleIndex_eq {rules : List Rule} {pythonRules : List Python.Rule}
    (h : List.Forall₂ (SameRule utcTimestamp) rules pythonRules) :
    pythonRules.map Python.Rule.ruleIndex = rules.map Rule.ruleIndex := by
  induction h with
  | nil => rfl
  | cons hrule _ ih => rw [List.map_cons, List.map_cons, hrule.ruleIndex, ih]

theorem any_deny_eq {rules : List Rule} {pythonRules : List Python.Rule}
    (h : List.Forall₂ (SameRule utcTimestamp) rules pythonRules) :
    pythonRules.any (fun rule => rule.action == .deny) =
      rules.any (fun rule => rule.action == .deny) := by
  induction h with
  | nil => rfl
  | cons hrule _ ih => rw [List.any_cons, List.any_cons, hrule.action, ih]

theorem python_actionPriority {action : Action} (h : action ≠ .deny) :
    Python.actionPriority action = actionPriority action := by
  cases action <;> first | rfl | exact absurd rfl h

/-- Among rules that do not deny, the two selection loops select related rules. -/
theorem betterRule_related {rules : List Rule} {pythonRules : List Python.Rule} {best : Rule}
    {pythonBest : Python.Rule} (h : List.Forall₂ (SameRule utcTimestamp) rules pythonRules)
    (hbest : SameRule utcTimestamp best pythonBest) (hdeny : best.action ≠ .deny)
    (hdenies : ∀ rule ∈ rules, rule.action ≠ .deny) :
    SameRule utcTimestamp (selectBest best rules)
      (pythonRules.foldl Python.betterRule pythonBest) := by
  induction h generalizing best pythonBest with
  | nil => exact hbest
  | @cons rust python rules pythonRules hrule _ ih =>
      obtain ⟨hrust, hrest⟩ := List.forall_mem_cons.1 hdenies
      have hround : Python.betterRule pythonBest python =
          if Outranks rust best then python else pythonBest := by
        unfold Python.betterRule
        rw [hrule.ruleSpecificity, hbest.ruleSpecificity, hrule.action, hbest.action,
          python_actionPriority hrust, python_actionPriority hdeny]
        by_cases hmore : ruleSpecificity best < ruleSpecificity rust
        · rw [if_pos hmore, if_pos (.inl hmore)]
        · rw [if_neg hmore]
          exact if_congr ⟨.inr, fun h => h.resolve_left hmore⟩ rfl rfl
      rw [selectBest, List.foldl_cons, List.foldl_cons, hround]
      by_cases houtranks : Outranks rust best
      · rw [if_pos houtranks, if_pos houtranks]
        exact ih hrule hrust hrest
      · rw [if_neg houtranks, if_neg houtranks]
        exact ih hbest hdeny hrest

variable {rust : Engine} {python : Python.Engine}

theorem SameEngine.resolveWithSelectedRuleAt (h : SameEngine utcTimestamp rust python)
    (call : PolicyCall) (now : Instant) :
    python.resolveWithSelectedRuleAt utcTimestamp call now =
      .ok (rust.resolveCallWithSelectedRuleAt call now) := by
  obtain ⟨matched, hmatched, hrelated⟩ := matchingRules_ok h.rules call now
  unfold Python.Engine.resolveWithSelectedRuleAt Engine.resolveCallWithSelectedRuleAt
  rw [hmatched]
  have hindices := map_ruleIndex_eq hrelated
  have hdeny := any_deny_eq hrelated
  change List.Forall₂ _ (rust.matching call now) matched at hrelated
  change _ = (rust.matching call now).map _ at hindices
  change _ = (rust.matching call now).any _ at hdeny
  generalize rust.matching call now = matching at hrelated hindices hdeny ⊢
  cases hrelated with
  | nil => simp [bind, Except.bind, h.defaultAction]
  | @cons first pythonFirst others pythonOthers hfirst hothers =>
      simp only [bind, Except.bind, hindices, hdeny]
      split
      · rfl
      · next hnodeny =>
          rw [Bool.not_eq_true, List.any_eq_false] at hnodeny
          have hdenies : ∀ rule ∈ first :: others, rule.action ≠ .deny := by simpa using hnodeny
          obtain ⟨hfirstdeny, hothersdeny⟩ := List.forall_mem_cons.1 hdenies
          have hbest := betterRule_related hothers hfirst hfirstdeny hothersdeny
          rw [hbest.action, hbest.ruleIndex]

theorem SameEngine.resolveCallAt (h : SameEngine utcTimestamp rust python) (call : PolicyCall)
    (now : Instant) :
    python.resolveCallAt utcTimestamp call now = .ok (rust.resolveCallAt call now) := by
  unfold Python.Engine.resolveCallAt Engine.resolveCallAt
  rw [h.resolveWithSelectedRuleAt call now, h.rateLimits]
  rcases rust.resolveCallWithSelectedRuleAt call now with ⟨decision, selectedRule⟩
  dsimp only [bind, Except.bind]
  split <;> rfl

end

/-- **Both runtimes decide alike.**  On the same engine, every call resolves to the same decision,
the same matched rules and the same selected rule at every instant, and so does the pure
decision that throttles a limited allow rule. -/
theorem python_resolve_eq {utcTimestamp : String → Option Instant} {rust : Engine}
    {python : Python.Engine} (h : SameEngine utcTimestamp rust python) (call : PolicyCall)
    (now : Instant) :
    python.resolveWithSelectedRuleAt utcTimestamp call now =
        .ok (rust.resolveCallWithSelectedRuleAt call now) ∧
      python.resolveCallAt utcTimestamp call now = .ok (rust.resolveCallAt call now) := by
  have hselected := h.resolveWithSelectedRuleAt call now
  refine ⟨hselected, ?_⟩
  unfold Python.Engine.resolveCallAt Engine.resolveCallAt
  rw [hselected, h.rateLimits]
  rcases rust.resolveCallWithSelectedRuleAt call now with ⟨decision, selectedRule⟩
  dsimp only [bind, Except.bind]
  split <;> rfl

/-! ## A sample policy

One limited rule with a condition that has every kind of leaf, in both runtimes. -/

/-- The two timestamps of the sample policy. -/
def sampleTimestamp (text : String) : Option Instant :=
  if text = "1970-01-01T00:00:00Z" then some 0
  else if text = "1970-01-01T00:00:10Z" then some 10000000000
  else none

/-- The condition of the sample rule: listings in a time window that touch no configuration. -/
def sampleCondition : Condition :=
  .all [.leaves (some "^ls .*") none (some ⟨0, 10000000000⟩),
    .not (.leaves none (some "/etc/*") none)]

def samplePythonCondition : Python.Condition :=
  .dict [("all", .nodes [
    .dict [("args_match", .text "^ls .*"), ("time_window", .window (.mapping [
      (.string "start", .string "1970-01-01T00:00:00Z"),
      (.string "end", .string "1970-01-01T00:00:10Z")]))],
    .dict [("not", .node (.dict [("path_pattern", .text "/etc/*")]))]])]

def sampleTarget : StringMap := Finmap.insert "tool" "shell" ∅

/-- The sample policy in both runtimes: one limited allow rule and a deny default. -/
def sampleEngine : Engine :=
  ⟨[⟨.allow, sampleTarget, sampleCondition, 0⟩], Finmap.insert 0 ⟨5, 60⟩ ∅, 2, .deny⟩

def samplePythonEngine : Python.Engine :=
  ⟨[⟨.allow, sampleTarget, samplePythonCondition, 0⟩], .deny, 2, Finmap.insert 0 ⟨5, 60⟩ ∅⟩

theorem sample_sameCondition :
    SameCondition sampleTimestamp sampleCondition samplePythonCondition := by
  refine .all (.cons (.leaves ?_) (.cons (.not (.leaves ?_)) .nil))
  · refine ⟨by decide, by decide, rfl, ?_, rfl, .some ⟨_, rfl, by decide +kernel⟩⟩
    rintro pattern hpattern
    obtain rfl := Option.some.inj hpattern
    exact exists_ok (by decide +kernel)
  · exact ⟨by decide, by decide, rfl, by simp, rfl, .none⟩

theorem sample_sameEngine : SameEngine sampleTimestamp sampleEngine samplePythonEngine :=
  ⟨.cons ⟨rfl, rfl, sample_sameCondition, rfl⟩ .nil, rfl, rfl, rfl⟩

/-- The call of the sample. -/
def sampleCall : PolicyCall := ⟨some "builder", some "shell", ["ls /tmp"], none, ∅⟩

theorem python_resolve_eq_sample :
    samplePythonEngine.resolveWithSelectedRuleAt sampleTimestamp sampleCall 5 =
        .ok (sampleEngine.resolveCallWithSelectedRuleAt sampleCall 5) ∧
      samplePythonEngine.resolveCallAt sampleTimestamp sampleCall 5 =
        .ok (sampleEngine.resolveCallAt sampleCall 5) :=
  python_resolve_eq sample_sameEngine sampleCall 5

end HpGuardian

import HpGuardian.Parity.Conditions

/-!
# The two parsers accept the same policies

Each function of one parser is compared with its counterpart of the other: on a plain document both
fail, or both succeed with the same value.  The checks of a mapping may come in a different order
in the two parsers; since only the verdict is compared, the order does not matter.  Which error is
reported is another question, and has its own modules.

The main difference is how a mapping is read.  The Rust parser goes through the entries in document
order and fills a record; the Python parser looks up one field after the other in a fixed order.
On a mapping with distinct keys a loop over the entries leaves in each part of its state what the
entry with that key left there, so the first can be read as the second: `RuleFields.read` is the
record of a rule mapping, field by field, and the fields of a target are brought into a fixed order
in the same way.

What the parsers accumulate while they read (rules, ids, the default action, limits) is related by
`SameState`, and the relation is carried through rules, tools, agents and top-level fields.  A
`global` mapping may come after the rules, whose default action it then replaces: `SameDocument`
says what both parsers know while it is still to come.

`parsers_agree` is the end of it, for both versions of the language.  `DecodedAlike` adds the
decoders: they read a text as the same plain document, or both refuse it.
-/

namespace HpGuardian

open Framework

section

variable {rt : YamlRuntime} {prt : Python.YamlRuntime} {fields : Fields}

/-! ## Rate limits

A `rate_limit` mapping has two positive integers, whose types differ in the two runtimes; a value
that fits both is the same quota. -/

/-- What one field of a `rate_limit` mapping does. -/
theorem rateLimitField_cases {acc acc' : Option ℕ × Option ℕ} {entry : Yaml × Yaml}
    (h : rateLimitField acc entry = .ok acc') :
    (entry.1 = .string "max_calls" ∧ acc' = (entry.2.asU64, acc.2)) ∨
      (entry.1 = .string "window_seconds" ∧ acc' = (acc.1, entry.2.asU64)) := by
  obtain ⟨key, value⟩ := entry
  unfold rateLimitField at h
  cases hname : fieldName key "rate_limit" with
  | error e => simp [hname, bind, Except.bind] at h
  | ok name =>
      obtain rfl := fieldName_ok.1 hname
      simp only [hname, bind, Except.bind] at h
      split at h
      · next hmax =>
          subst hmax
          exact .inl ⟨rfl, (Except.ok.inj h).symm⟩
      · split at h
        · next hwindow =>
            subst hwindow
            exact .inr ⟨rfl, (Except.ok.inj h).symm⟩
        · cases h

theorem rateLimitFields_cases (hdistinct : fields.DistinctKeys) :
    (fields.KnownKeys ["max_calls", "window_seconds"] ∧
        fields.foldlM rateLimitField (none, none) =
          .ok ((fields.get "max_calls").bind Yaml.asU64,
            (fields.get "window_seconds").bind Yaml.asU64)) ∨
      (¬ fields.KnownKeys ["max_calls", "window_seconds"] ∧
        ∃ e, fields.foldlM rateLimitField (none, none) = .error e) := by
  refine ok_or_error (foldlM_isOk_iff (fun acc entry => ?_) fields _) (fun acc' hrun => ?_)
  · constructor
    · rintro ⟨acc', h⟩
      rcases rateLimitField_cases h with ⟨hkey, -⟩ | ⟨hkey, -⟩ <;> simp [hkey]
    · obtain ⟨key, value⟩ := entry
      rintro ⟨name, hname, rfl⟩
      simp only [List.mem_cons, List.not_mem_nil, or_false] at hname
      rcases hname with rfl | rfl
      · exact ⟨_, rfl⟩
      · exact ⟨_, rfl⟩
  · have hmax := Fields.foldlM_slot Prod.fst "max_calls" (fun value _ => value.asU64) hdistinct
      (fun acc acc' entry hkey h => by
        rcases rateLimitField_cases h with ⟨hmax, -⟩ | ⟨-, rfl⟩
        · exact absurd hmax hkey
        · rfl)
      (fun acc acc' value h => by
        rcases rateLimitField_cases h with ⟨-, rfl⟩ | ⟨hkey, -⟩
        · rfl
        · simp at hkey) hrun
    have hwindow := Fields.foldlM_slot Prod.snd "window_seconds" (fun value _ => value.asU64)
      hdistinct
      (fun acc acc' entry hkey h => by
        rcases rateLimitField_cases h with ⟨-, rfl⟩ | ⟨hwindow, -⟩
        · rfl
        · exact absurd hwindow hkey)
      (fun acc acc' value h => by
        rcases rateLimitField_cases h with ⟨hkey, -⟩ | ⟨-, rfl⟩
        · simp at hkey
        · rfl) hrun
    refine Prod.ext (hmax.trans ?_) (hwindow.trans ?_)
    · cases fields.get "max_calls" <;> rfl
    · cases fields.get "window_seconds" <;> rfl

theorem quotaValue_eq (value : Yaml) :
    Python.quotaValue value = value.asU64.filter (fun n => 1 ≤ n ∧ n ≤ 86400) := by
  cases value with
  | int n =>
      simp only [Python.quotaValue, Yaml.asU64]
      split_ifs <;> simp [Option.filter] <;> omega
  | _ => rfl

theorem sameOutcome_parseRateLimit {value : Yaml} (h : Plain .document value) :
    SameOutcome Eq (parseRateLimit value) (Python.parseRateLimit prt value) := by
  cases value with
  | mapping fields =>
      have hdistinct := h.distinctKeys
      have hpython := rejectUnknownFields_cases prt fields ["max_calls", "window_seconds"]
        "rate_limit" "invalid_field"
      simp only [parseRateLimit, Python.parseRateLimit, mappingOf, Python.mappingOf,
        Yaml.asMapping, bind, Except.bind, quotaValue_eq]
      rcases rateLimitFields_cases hdistinct with ⟨hknown, hrun⟩ | ⟨hunknown, e, hrun⟩
      · obtain ⟨-, hpython⟩ := hpython.resolve_right (fun h => h.1 hknown)
        rw [hrun, hpython]
        cases hmax : Fields.get fields "max_calls" with
        | none => split <;> exact .error
        | some maxCalls =>
            cases hwindow : Fields.get fields "window_seconds" with
            | none =>
                dsimp only [Option.bind_some, Option.bind_none]
                split
                · exact .error
                · cases maxCalls.asU64 <;> exact .error
            | some windowSeconds =>
                have hlength : fields.length = 2 :=
                  Fields.length_eq hdistinct hknown (by decide) (by simp [hmax, hwindow])
                rw [if_neg (not_not.2 hlength)]
                dsimp only [Option.bind_some]
                cases maxCalls.asU64 with
                | none => exact .error
                | some m =>
                    cases windowSeconds.asU64 with
                    | none =>
                        simp [Option.filter]
                        exact .error
                    | some w =>
                        by_cases hm : 1 ≤ m ∧ m ≤ 86400
                        · by_cases hw : 1 ≤ w ∧ w ≤ 86400
                          · simp [Option.filter, hm, hw]
                            exact .ok rfl
                          · simp [Option.filter, hm, hw]
                            exact .error
                        · simp [Option.filter, hm]
                          exact .error
      · obtain ⟨-, e', hpython⟩ := hpython.resolve_left (fun h => hunknown h.1)
        rw [hrun, hpython]
        split <;> exact .error
  | _ => exact .error

/-! ## Targets

Reading one field of a target commutes with reading another, so the order of the document can be
replaced by the order of the Python parser. -/

theorem contextEntry_insert {key text : String} (hkey : ∀ k, "context." ++ k ≠ key)
    (parsed : StringMap) (entry : Yaml × Yaml) :
    contextEntry (parsed.insert key text) entry =
      (contextEntry parsed entry).map (Finmap.insert key text) := by
  unfold contextEntry
  cases orElseError (fieldName entry.1 "target.context") (.invalidTarget "context") with
  | error e => rfl
  | ok contextKey =>
      simp only [bind, Except.bind]
      cases unambiguousStringOr entry.2 (.invalidTarget ("context." ++ contextKey))
        (.invalidTarget ("context." ++ contextKey)) with
      | error e => rfl
      | ok contextValue =>
          exact congrArg Except.ok (Finmap.insert_insert_of_ne _ (hkey contextKey).symm)

/-- Reading a target's context commutes with setting another field. -/
theorem contextFold_insert {key text : String} (hkey : ∀ k, "context." ++ k ≠ key)
    (context : Fields) (parsed : StringMap) :
    context.foldlM contextEntry (parsed.insert key text) =
      (context.foldlM contextEntry parsed).map (Finmap.insert key text) := by
  induction context generalizing parsed with
  | nil => rfl
  | cons entry context ih =>
      rw [List.foldlM_cons, List.foldlM_cons, contextEntry_insert hkey]
      cases contextEntry parsed entry with
      | error e => rfl
      | ok parsed' => exact ih parsed'

theorem targetField_comm_string {key key' : String} (hkey : key ∈ ["agent", "tool", "user"])
    (hkey' : key' ∈ ["agent", "tool", "user", "context"]) (hne : key ≠ key') (value value' : Yaml)
    (parsed : StringMap) :
    SameOutcome Eq
      (targetField parsed (.string key, value) >>= fun p => targetField p (.string key', value'))
      (targetField parsed (.string key', value') >>= fun p =>
        targetField p (.string key, value)) := by
  simp only [targetField_string hkey]
  by_cases hcontext : key' = "context"
  · subst hcontext
    simp only [targetField_context]
    cases unambiguousStringOr value (.invalidTarget key) (.invalidTarget key) with
    | error e =>
        cases orElseError (mappingOf value' "target.context") (.invalidTarget "context") with
        | error e => exact .error
        | ok context =>
            simp only [bind, Except.bind, Except.map]
            cases context.foldlM contextEntry parsed <;> exact .error
    | ok text =>
        cases orElseError (mappingOf value' "target.context") (.invalidTarget "context") with
        | error e => exact .error
        | ok context =>
            simp only [bind, Except.bind, Except.map, contextFold_insert (context_ne hkey)]
            cases context.foldlM contextEntry parsed with
            | error e => exact .error
            | ok parsed' => exact .ok rfl
  · have hstring : key' ∈ ["agent", "tool", "user"] := by
      simp only [List.mem_cons, List.not_mem_nil, or_false] at hkey' ⊢
      tauto
    simp only [targetField_string hstring]
    cases unambiguousStringOr value (.invalidTarget key) (.invalidTarget key) with
    | error e =>
        cases unambiguousStringOr value' (.invalidTarget key') (.invalidTarget key') <;>
          exact .error
    | ok text =>
        cases unambiguousStringOr value' (.invalidTarget key') (.invalidTarget key') with
        | error e => exact .error
        | ok text' => exact .ok (Finmap.insert_insert_of_ne _ hne)

theorem targetField_comm {key key' : String} (hkey : key ∈ ["agent", "tool", "user", "context"])
    (hkey' : key' ∈ ["agent", "tool", "user", "context"]) (hne : key ≠ key') (value value' : Yaml)
    (parsed : StringMap) :
    SameOutcome Eq
      (targetField parsed (.string key, value) >>= fun p => targetField p (.string key', value'))
      (targetField parsed (.string key', value') >>= fun p =>
        targetField p (.string key, value)) := by
  by_cases hcontext : key = "context"
  · have hstring : key' ∈ ["agent", "tool", "user"] := by
      simp only [List.mem_cons, List.not_mem_nil, or_false] at hkey' ⊢
      have := hcontext ▸ hne
      tauto
    exact (targetField_comm_string hstring hkey hne.symm value' value parsed).symm
  · have hstring : key ∈ ["agent", "tool", "user"] := by
      simp only [List.mem_cons, List.not_mem_nil, or_false] at hkey ⊢
      tauto
    exact targetField_comm_string hstring hkey' hne value value' parsed

/-- The entries of a target's context, read by both parsers. -/
theorem sameOutcome_context {context : Fields}
    (hplain : Plain .document (.mapping context)) (parsed : StringMap) :
    SameOutcome Eq (context.foldlM contextEntry parsed)
      (context.foldlM (Python.contextEntry prt) parsed) := by
  refine SameOutcome.foldlM (R := Eq) ?_ rfl
  rintro parsed - rfl entry hentry
  obtain ⟨hkey, hvalue⟩ := hplain.entry hentry
  obtain ⟨key, value⟩ := entry
  cases key with
  | string name =>
      obtain ⟨-, hpython⟩ := hkey.unambiguous (by simp)
      refine SameOutcome.bind (R := fun rust python => rust = name ∧ python = name) ?_ ?_
      · simp only [orElseError, fieldName, Yaml.asStr, Except.mapError, Python.unambiguousString,
          Python.stringOf, bind, Except.bind, hpython]
        exact .ok ⟨rfl, rfl⟩
      · rintro _ _ ⟨rfl, rfl⟩
        refine SameOutcome.bind (R := Eq)
          (sameOutcome_string hvalue (Place.child_document_ne _) prt _ _ _ _) ?_
        rintro text - rfl
        exact .ok rfl
  | _ => exact .error

theorem inOrder_foldlM {σ ε : Type*} (f : σ → Yaml × Yaml → Except ε σ) (names : List String)
    (s : σ) :
    (fields.inOrder names).foldlM f s =
      names.foldlM (fun s name =>
        match fields.get name with
        | some value => f s (.string name, value)
        | none => .ok s) s := by
  rw [Fields.inOrder, List.foldlM_filterMap]
  congr
  funext s name
  cases fields.get name <;> rfl

/-- The fields of a target, read in a fixed order instead of the order of the document. -/
theorem sameOutcome_targetFields (hdistinct : fields.DistinctKeys)
    (hknown : fields.KnownKeys ["agent", "tool", "user", "context"]) (parsed : StringMap) :
    SameOutcome Eq (fields.foldlM targetField parsed)
      ((fields.inOrder ["agent", "tool", "user", "context"]).foldlM targetField parsed) := by
  refine SameOutcome.foldlM_perm (Fields.perm_inOrder hdistinct hknown (by decide)) ?_ parsed
  rintro ⟨key, value⟩ hentry ⟨key', value'⟩ hentry' hne parsed
  obtain ⟨name, hname, hkey⟩ := hknown _ hentry
  obtain ⟨name', hname', hkey'⟩ := hknown _ hentry'
  obtain rfl : key = .string name := hkey
  obtain rfl : key' = .string name' := hkey'
  refine targetField_comm hname hname' ?_ value value' parsed
  rintro rfl
  have hsame := (Fields.get_of_mem hdistinct hentry).symm.trans
    (Fields.get_of_mem hdistinct hentry')
  obtain rfl := Option.some.inj hsame
  exact hne rfl

/-- A target: the same flattened map. -/
theorem sameOutcome_parseTarget {value : Yaml} (hplain : Plain .document value) :
    SameOutcome Eq (parseTarget (some value)) (Python.parseTarget prt value) := by
  cases value with
  | mapping fields =>
      have hdistinct := hplain.distinctKeys
      change SameOutcome Eq (List.foldlM targetField ∅ fields) _
      rcases rejectUnknownFields_cases prt fields ["agent", "tool", "user", "context"] "target"
        "invalid_target" with ⟨hknown, hcheck⟩ | ⟨hunknown, e, hcheck⟩
      · refine (sameOutcome_targetFields hdistinct hknown ∅).trans ?_
        rw [inOrder_foldlM]
        simp only [Python.parseTarget, Python.mappingOf, Yaml.asMapping, ok_bind, hcheck]
        change SameOutcome Eq (List.foldlM _ ∅ (["agent", "tool", "user"] ++ ["context"])) _
        rw [List.foldlM_append]
        refine SameOutcome.bind (R := Eq) (SameOutcome.foldlM (R := Eq) ?_ rfl) ?_
        · rintro parsed - rfl key hkey
          unfold Python.targetString
          cases hget : Fields.get fields key with
          | none => exact .ok rfl
          | some value =>
              have hname : key ∉ ["start", "end", "time_window"] := by
                simp only [List.mem_cons, List.not_mem_nil, or_false] at hkey
                rcases hkey with rfl | rfl | rfl <;> decide
              have hvalue := hplain.field hname (Fields.mem_of_get hget)
              dsimp only
              rw [targetField_string hkey]
              exact SameOutcome.bind (R := Eq)
                (sameOutcome_string hvalue (by simp) prt _ _ _ _) (fun _ _ h => .ok (by rw [h]))
        · rintro parsed - rfl
          cases hget : Fields.get fields "context" with
          | none =>
              simp only [List.foldlM_cons, List.foldlM_nil, hget]
              exact .ok rfl
          | some value =>
              have hvalue := hplain.field (by decide) (Fields.mem_of_get hget)
              simp only [List.foldlM_cons, List.foldlM_nil, hget, targetField_context, bind_pure]
              cases value with
              | mapping context => exact sameOutcome_context hvalue parsed
              | _ => exact .error
      · cases hrun : List.foldlM targetField ∅ fields with
        | ok parsed => exact absurd (foldlM_forall (fun _ _ _ h => targetField_key h) hrun) hunknown
        | error e' =>
            simp only [Python.parseTarget, Python.mappingOf, Yaml.asMapping, ok_bind, hcheck]
            exact .error
  | _ => exact .error

/-! ## Rules

A rule mapping, its checks one by one, and the state after a rule. -/

/-- The record of a rule mapping, read by field name. -/
def RuleFields.read (fields : Fields) : RuleFields where
  action := (fields.get "action").bind Yaml.asStr
  target := fields.get "target"
  condition := fields.get "condition"
  id := (fields.get "id").bind Yaml.asStr
  rateLimit := (fields.get "rate_limit").bind (fun value => (parseRateLimit value).toOption)

theorem ruleFields_eq {allow : Bool} {rule : RuleFields} (hdistinct : fields.DistinctKeys)
    (hrun : fields.foldlM (ruleField rt allow) ⟨none, none, none, none, none⟩ = .ok rule) :
    rule = RuleFields.read fields := by
  rw [ruleFields_ofFields hrun, RuleFields.ofFields, RuleFields.read]
  simp only [Fields.last_eq_get hdistinct]

/-- What the loop over a rule mapping accepts, field by field: known names, texts where texts are
expected, and a limit that can be parsed. What is inside a target or a condition is read later. -/
structure RuleAccepted (allow : Bool) (fields : Fields) : Prop where
  known : fields.KnownKeys (ruleNames allow)
  action : ∀ value ∈ fields.get "action", ∃ text, value = .string text
  id : ∀ value ∈ fields.get "id", ∃ text, value = .string text ∧ isAmbiguousYamlScalar text = false
  rateLimit : ∀ value ∈ fields.get "rate_limit", ∃ rateLimit, parseRateLimit value = .ok rateLimit

theorem ruleFields_ok_iff {allow : Bool} {rule : RuleFields} (hdistinct : fields.DistinctKeys) :
    fields.foldlM (ruleField rt allow) ⟨none, none, none, none, none⟩ = .ok rule ↔
      RuleAccepted allow fields ∧ rule = RuleFields.read fields := by
  have hmem : ∀ {name value}, value ∈ fields.get name → (Yaml.string name, value) ∈ fields :=
    fun h => Fields.mem_of_get h
  constructor
  · intro hrun
    have haccepted := (ruleFields_isOk fields _).1 ⟨rule, hrun⟩
    have hvalue : ∀ name value, value ∈ fields.get name → RuleValue name value := by
      intro name value hget
      obtain ⟨name', hkey, -, h⟩ := haccepted _ (hmem hget)
      cases hkey
      exact h
    refine ⟨⟨fun entry hentry => ?_, fun value hget => (hvalue _ _ hget).1 rfl,
      fun value hget => (hvalue _ _ hget).2.1 rfl, fun value hget => (hvalue _ _ hget).2.2 rfl⟩,
      ruleFields_eq hdistinct hrun⟩
    obtain ⟨name, hkey, hname, -⟩ := haccepted entry hentry
    exact ⟨name, hname, hkey⟩
  · rintro ⟨h, rfl⟩
    obtain ⟨rule, hrun⟩ := (@ruleFields_isOk rt allow fields
      ⟨none, none, none, none, none⟩).2 (fun entry hentry => by
        obtain ⟨name, hname, hkey⟩ := h.known entry hentry
        obtain ⟨key, value⟩ := entry
        obtain rfl : key = .string name := hkey
        have hget := Fields.get_of_mem hdistinct hentry
        refine ⟨name, rfl, hname, ?_, ?_, ?_⟩ <;> rintro rfl
        · exact h.action value hget
        · exact h.id value hget
        · exact h.rateLimit value hget)
    rw [hrun, ruleFields_eq hdistinct hrun]

/-! ### A rule, check by check -/

/-- The action of a rule mapping. -/
def readAction (fields : Fields) : Except PolicyError Action :=
  match fields.get "action" with
  | some (.string text) => parseAction text
  | _ => .error (.invalidAction "missing rule.action")

/-- The ids seen after a rule mapping. -/
def readRuleIds (ruleIds : Finset String) (fields : Fields) :
    Except PolicyError (Finset String) :=
  match fields.get "id" with
  | some value => do
      let text ← unambiguousStringOr value (.invalidField "rule.id") (.invalidField "rule.id")
      insertRuleId ruleIds (some text)
  | none => .ok ruleIds

/-- The limit of a rule mapping. -/
def readRateLimit (fields : Fields) : Except PolicyError (Option RateLimit) :=
  match fields.get "rate_limit" with
  | some value => (parseRateLimit value).map some
  | none => .ok none

/-- The state after a rule. -/
def ParseState.add (state : ParseState) (action : Action) (target : StringMap)
    (condition : Condition) (ruleIds : Finset String) (rateLimit : Option RateLimit) :
    ParseState where
  rules := state.rules ++ [⟨action, target, condition, state.index⟩]
  ruleIds := ruleIds
  index := state.index + 1
  rateLimits := match rateLimit with
    | some rateLimit => state.rateLimits.insert state.index rateLimit
    | none => state.rateLimits

theorem required_ok {value : Option Yaml} {error : Python.PolicyError} {found : Yaml} :
    Python.required value error = .ok found ↔ value = some found := by
  cases value <;> simp [Python.required]

theorem readAction_ok {action : Action} :
    readAction fields = .ok action ↔
      ∃ text, fields.get "action" = some (.string text) ∧ parseAction text = .ok action := by
  unfold readAction
  split
  · next text hget => simp [hget]
  · next hnot =>
      simp only [reduceCtorEq, false_iff, not_exists, not_and]
      exact fun text hget => absurd hget (hnot text)

theorem readRuleIds_ok {ruleIds ruleIds' : Finset String} :
    readRuleIds ruleIds fields = .ok ruleIds' ↔
      (∀ value ∈ fields.get "id",
        ∃ text, value = .string text ∧ isAmbiguousYamlScalar text = false) ∧
      insertRuleId ruleIds ((fields.get "id").bind Yaml.asStr) = .ok ruleIds' := by
  unfold readRuleIds
  cases fields.get "id" with
  | none => simp [insertRuleId]
  | some value =>
      simp only [bind_ok_iff, unambiguousStringOr_ok, Option.mem_def, Option.some.injEq,
        forall_eq', Option.bind_some]
      constructor
      · rintro ⟨text, ⟨rfl, htext⟩, hinsert⟩
        exact ⟨⟨text, rfl, htext⟩, hinsert⟩
      · rintro ⟨⟨text, rfl, htext⟩, hinsert⟩
        exact ⟨text, ⟨rfl, htext⟩, hinsert⟩

theorem readRateLimit_ok {rateLimit : Option RateLimit} :
    readRateLimit fields = .ok rateLimit ↔
      (∀ value ∈ fields.get "rate_limit", ∃ limit, parseRateLimit value = .ok limit) ∧
      rateLimit =
        (fields.get "rate_limit").bind (fun value => (parseRateLimit value).toOption) := by
  unfold readRateLimit
  cases fields.get "rate_limit" with
  | none => simp [eq_comm]
  | some value =>
      cases hparse : parseRateLimit value with
      | error e => simp [hparse, Except.map]
      | ok limit => simp [hparse, Except.map, Except.toOption, eq_comm]

/-- What the Rust parser accepts as a rule, and the state it leaves. -/
theorem addRule_ok_iff {allow : Bool} {enclosing : List (String × String)}
    {state state' : ParseState} (hdistinct : fields.DistinctKeys) :
    addRule rt allow enclosing state (.mapping fields) = .ok state' ↔
      fields.KnownKeys (ruleNames allow) ∧ ∃ action ruleIds rateLimit target flat condition,
        readAction fields = .ok action ∧ readRuleIds state.ruleIds fields = .ok ruleIds ∧
        readRateLimit fields = .ok rateLimit ∧ (rateLimit.isSome → action = .allow) ∧
        parseTarget (fields.get "target") = .ok target ∧
        enclosing.foldlM addEnclosingTarget target = .ok flat ∧
        parseConditions rt (fields.get "condition") = .ok condition ∧
        state' = state.add action flat condition ruleIds rateLimit := by
  simp only [addRule, mappingOf, Yaml.asMapping, ok_bind, bind_ok_iff, okOr_ok,
    ruleFields_ok_iff hdistinct, readAction_ok, readRuleIds_ok, readRateLimit_ok]
  constructor
  · rintro ⟨rule, ⟨haccepted, rfl⟩, text, htext, ids, hids, action, haction, hlast⟩
    obtain ⟨value, hvalue, htext⟩ := Option.bind_eq_some_iff.1 htext
    obtain rfl := Yaml.asStr_eq_some.1 htext
    by_cases hgate : (RuleFields.read fields).rateLimit.isSome ∧ action ≠ .allow
    · rw [if_pos hgate] at hlast
      cases hlast
    · simp only [if_neg hgate, bind_ok_iff] at hlast
      obtain ⟨target, htarget, flat, hflat, condition, hcondition, hstate⟩ := hlast
      exact ⟨haccepted.known, action, ids, _, target, flat, condition, ⟨text, hvalue, haction⟩,
        ⟨haccepted.id, hids⟩, ⟨haccepted.rateLimit, rfl⟩,
        fun hsome => not_not.1 (fun hne => hgate ⟨hsome, hne⟩), htarget, hflat, hcondition,
        (Except.ok.inj hstate).symm⟩
  · rintro ⟨hknown, action, ids, rateLimit, target, flat, condition, ⟨text, htext, haction⟩,
      ⟨hid, hids⟩, ⟨hrate, rfl⟩, hgate, htarget, hflat, hcondition, rfl⟩
    refine ⟨_, ⟨⟨hknown, fun value hvalue => ⟨text, ?_⟩, hid, hrate⟩, rfl⟩, text, ?_, ids, hids,
      action, haction, ?_⟩
    · exact (Option.some.inj (htext.symm.trans hvalue)).symm
    · rw [RuleFields.read, htext]
      rfl
    · rw [if_neg (fun h => h.2 (hgate h.1))]
      simp only [bind_ok_iff]
      exact ⟨target, htarget, flat, hflat, condition, hcondition, rfl⟩

/-- The state of the Python parser after a rule. -/
def Python.ParseState.add (state : Python.ParseState) (action : Action) (target : StringMap)
    (condition : Python.Condition) (seenIds : Finset String) (rateLimit : Option RateLimit) :
    Python.ParseState where
  rules := state.rules ++ [⟨action, target, condition, state.rules.length⟩]
  seenIds := seenIds
  rateLimits := match rateLimit with
    | some rateLimit => state.rateLimits.insert state.rules.length rateLimit
    | none => state.rateLimits

/-- What the Python parser accepts as a rule, and the state it leaves. -/
theorem python_addRule_ok_iff {allow : Bool} {enclosing : List (String × String)}
    {state state' : Python.ParseState} :
    Python.addRule prt allow enclosing state (.mapping fields) = .ok state' ↔
      fields.KnownKeys (ruleNames allow) ∧ ∃ action ruleIds rateLimit target flat condition,
        (∃ value, fields.get "action" = some value ∧ Python.parseAction prt value = .ok action) ∧
        Python.addRuleId prt state.seenIds (fields.get "id") = .ok ruleIds ∧
        Python.optionalRateLimit prt (fields.get "rate_limit") = .ok rateLimit ∧
        (rateLimit.isSome → action = .allow) ∧
        Python.parseTarget prt ((fields.get "target").getD (.mapping [])) = .ok target ∧
        enclosing.foldlM Python.addEnclosingTarget target = .ok flat ∧
        Python.parseCondition prt ((fields.get "condition").getD (.mapping [])) =
          .ok condition ∧
        state' = state.add action flat condition ruleIds rateLimit := by
  simp only [Python.addRule, Python.mappingOf, Yaml.asMapping, ok_bind]
  rcases rejectUnknownFields_cases prt fields (ruleNames allow) "rule" "invalid_field" with
    ⟨hknown, hcheck⟩ | ⟨hunknown, e, hcheck⟩
  · rw [ruleNames] at hcheck
    rw [hcheck]
    simp only [ok_bind, bind_ok_iff, required_ok]
    constructor
    · rintro ⟨value, hvalue, ids, hids, target, htarget, flat, hflat, condition, hcondition, action,
        haction, rateLimit, hrate, hlast⟩
      by_cases hgate : rateLimit.isSome ∧ action ≠ .allow
      · rw [if_pos hgate] at hlast
        cases hlast
      · rw [if_neg hgate] at hlast
        exact ⟨hknown, action, ids, rateLimit, target, flat, condition, ⟨value, hvalue, haction⟩,
          hids, hrate, by tauto, htarget, hflat, hcondition, (Except.ok.inj hlast).symm⟩
    · rintro ⟨-, action, ids, rateLimit, target, flat, condition, ⟨value, hvalue, haction⟩, hids,
        hrate, hgate, htarget, hflat, hcondition, rfl⟩
      refine ⟨value, hvalue, ids, hids, target, htarget, flat, hflat, condition, hcondition, action,
        haction, rateLimit, hrate, ?_⟩
      rw [if_neg (fun h => h.2 (hgate h.1))]
      rfl
  · rw [ruleNames] at hcheck
    rw [hcheck]
    simp [hunknown]

/-- The same action. -/
theorem python_parseAction_ok {value : Yaml} {action : Action} :
    Python.parseAction prt value = .ok action ↔
      ∃ text, value = .string text ∧ parseAction text = .ok action := by
  cases value with
  | string text =>
      have hlookup : Python.actions.lookup text = some action ↔
          parseAction text = .ok action := by
        unfold parseAction
        split
        case h_7 hallow hdeny hthrottle hlog happroval hredirect =>
          have hnone : Python.actions.lookup text = none := by
            rw [List.lookup_eq_none_iff]
            simpa [Python.actions] using
              ⟨hallow, hdeny, hthrottle, hlog, happroval, hredirect⟩
          simp [hnone]
        all_goals simp [Python.actions, List.lookup_cons]
      rw [Python.parseAction, Yaml.asStr, Option.bind_some]
      simp only [Yaml.string.injEq, exists_eq_left', ← hlookup]
      cases Python.actions.lookup text <;> simp
  | _ => simp [Python.parseAction, Yaml.asStr]

theorem sameOutcome_ruleIds {rule : Fields} (hplain : Plain .document (.mapping rule))
    (ruleIds : Finset String) :
    SameOutcome Eq (readRuleIds ruleIds rule) (Python.addRuleId prt ruleIds (rule.get "id")) := by
  unfold readRuleIds Python.addRuleId
  cases hget : rule.get "id" with
  | none => exact .ok rfl
  | some value =>
      have hvalue := hplain.field (by decide) (Fields.mem_of_get hget)
      refine SameOutcome.bind (R := Eq) (sameOutcome_string hvalue (by simp) prt _ _ _ _) ?_
      rintro text - rfl
      unfold insertRuleId
      by_cases hseen : text ∈ ruleIds
      · simp only [if_pos hseen]
        exact .error
      · simp only [if_neg hseen]
        exact .ok rfl

theorem sameOutcome_rateLimit {rule : Fields} (hplain : Plain .document (.mapping rule)) :
    SameOutcome Eq (readRateLimit rule)
      (Python.optionalRateLimit prt (rule.get "rate_limit")) := by
  unfold readRateLimit Python.optionalRateLimit
  cases hget : rule.get "rate_limit" with
  | none => exact .ok rfl
  | some value =>
      have hvalue := hplain.field (by decide) (Fields.mem_of_get hget)
      exact SameOutcome.bind (R := Eq) (sameOutcome_parseRateLimit hvalue)
        (fun _ _ h => .ok (congrArg some h))

/-- The empty mapping that stands for an absent target or condition. -/
theorem plain_empty : Plain .document (.mapping []) := by
  simp [Plain, PlainEntries, Fields.DistinctKeys]

theorem sameOutcome_target {rule : Fields} (hplain : Plain .document (.mapping rule)) :
    SameOutcome Eq (parseTarget (rule.get "target"))
      (Python.parseTarget prt ((rule.get "target").getD (.mapping []))) := by
  cases hget : rule.get "target" with
  | none => exact sameOutcome_parseTarget plain_empty
  | some value =>
      exact sameOutcome_parseTarget (hplain.field (by decide) (Fields.mem_of_get hget))

theorem sameOutcome_enclosing (enclosing : List (String × String)) (target : StringMap) :
    SameOutcome Eq (enclosing.foldlM addEnclosingTarget target)
      (enclosing.foldlM Python.addEnclosingTarget target) := by
  refine SameOutcome.foldlM (R := Eq) ?_ rfl
  rintro target - rfl scope -
  unfold addEnclosingTarget Python.addEnclosingTarget
  cases target.lookup scope.1 with
  | none =>
      simp
      exact .ok rfl
  | some value =>
      by_cases hvalue : value = scope.2
      · simp [hvalue]
        exact .ok rfl
      · simp [hvalue]
        exact .error

theorem sameOutcome_conditions (hts : prt.utcTimestamp = rt.utcTimestamp) {rule : Fields}
    (hplain : Plain .document (.mapping rule)) :
    SameOutcome (SameCondition rt.utcTimestamp) (parseConditions rt (rule.get "condition"))
      (Python.parseCondition prt ((rule.get "condition").getD (.mapping []))) := by
  cases hget : rule.get "condition" with
  | none =>
      have hempty : parseCondition rt (.mapping []) 1 0 = .ok (.default, 1) := by
        rw [parseCondition]
        rfl
      have h := sameOutcome_parseConditionNode hts (.mapping []) plain_empty 1 0
      rw [hempty] at h
      exact SameOutcome.bind h (fun _ _ h => .ok h.1)
  | some value =>
      have hvalue := hplain.field (by decide) (Fields.mem_of_get hget)
      exact SameOutcome.bind (sameOutcome_parseConditionNode hts value hvalue 1 0)
        (fun _ _ h => .ok h.1)

/-- What both parsers have accumulated so far: the same rules in the same order, the same ids, and
the same limits under the same indices. -/
structure SameState (utcTimestamp : String → Option Instant) (rust : ParseState)
    (python : Python.ParseState) : Prop where
  rules : List.Forall₂ (SameRule utcTimestamp) rust.rules python.rules
  ruleIds : python.seenIds = rust.ruleIds
  index : rust.index = rust.rules.length
  rateLimits : python.rateLimits = rust.rateLimits

theorem SameState.empty (utcTimestamp : String → Option Instant) :
    SameState utcTimestamp .empty .empty := ⟨.nil, rfl, rfl, rfl⟩

theorem SameState.add {state : ParseState} {pythonState : Python.ParseState}
    (h : SameState rt.utcTimestamp state pythonState) (action : Action) (target : StringMap)
    {condition : Condition} {pythonCondition : Python.Condition}
    (hcondition : SameCondition rt.utcTimestamp condition pythonCondition)
    (ruleIds : Finset String) (rateLimit : Option RateLimit) :
    SameState rt.utcTimestamp (state.add action target condition ruleIds rateLimit)
      (pythonState.add action target pythonCondition ruleIds rateLimit) := by
  have hindex : pythonState.rules.length = state.index := by
    rw [h.index, h.rules.length_eq]
  refine ⟨?_, rfl, ?_, ?_⟩
  · exact List.rel_append h.rules (.cons ⟨rfl, rfl, hcondition, hindex⟩ .nil)
  · simp [ParseState.add, h.index]
  · simp only [ParseState.add, Python.ParseState.add, hindex, h.rateLimits]

/-- One rule: both parsers reject it, or both add it. -/
theorem sameOutcome_addRule (hts : prt.utcTimestamp = rt.utcTimestamp) {allow : Bool}
    (enclosing : List (String × String)) {state : ParseState} {pythonState : Python.ParseState}
    (hstate : SameState rt.utcTimestamp state pythonState) {value : Yaml}
    (hplain : Plain .document value) :
    SameOutcome (SameState rt.utcTimestamp) (addRule rt allow enclosing state value)
      (Python.addRule prt allow enclosing pythonState value) := by
  cases value with
  | mapping fields =>
      have hids := @sameOutcome_ruleIds prt fields hplain state.ruleIds
      have hrate := @sameOutcome_rateLimit prt fields hplain
      have htarget := @sameOutcome_target prt fields hplain
      have hconditions := sameOutcome_conditions hts hplain
      refine .of_forall (fun state' hrust => ?_) (fun state' hpython => ?_)
      · obtain ⟨hknown, action, ruleIds, rateLimit, target, flat, condition, haction, hruleIds,
          hlimit, hgate, htargets, hflat, hcondition, rfl⟩ :=
          (addRule_ok_iff hplain.distinctKeys).1 hrust
        obtain ⟨text, hget, htext⟩ := readAction_ok.1 haction
        obtain ⟨_, hpids, rfl⟩ := hids.exists_right hruleIds
        obtain ⟨_, hplimit, rfl⟩ := hrate.exists_right hlimit
        obtain ⟨_, hptarget, rfl⟩ := htarget.exists_right htargets
        obtain ⟨_, hpflat, rfl⟩ := (sameOutcome_enclosing enclosing target).exists_right hflat
        obtain ⟨pythonCondition, hpcondition, hsame⟩ := hconditions.exists_right hcondition
        refine ⟨_, python_addRule_ok_iff.2 ⟨hknown, action, ruleIds, rateLimit, target, flat,
          pythonCondition, ⟨_, hget, python_parseAction_ok.2 ⟨text, rfl, htext⟩⟩,
          by rwa [hstate.ruleIds], hplimit, hgate, hptarget, hpflat, hpcondition, rfl⟩, ?_⟩
        exact hstate.add action flat hsame ruleIds rateLimit
      · obtain ⟨hknown, action, ruleIds, rateLimit, target, flat, pythonCondition,
          ⟨value, hget, haction⟩, hruleIds, hlimit, hgate, htargets, hflat, hcondition, rfl⟩ :=
          python_addRule_ok_iff.1 hpython
        obtain ⟨text, rfl, htext⟩ := python_parseAction_ok.1 haction
        rw [hstate.ruleIds] at hruleIds
        obtain ⟨_, hrids, rfl⟩ := hids.exists_left hruleIds
        obtain ⟨_, hrlimit, rfl⟩ := hrate.exists_left hlimit
        obtain ⟨_, hrtarget, rfl⟩ := htarget.exists_left htargets
        obtain ⟨_, hrflat, rfl⟩ := (sameOutcome_enclosing enclosing _).exists_left hflat
        obtain ⟨condition, hrcondition, -⟩ := hconditions.exists_left hcondition
        exact ⟨_, (addRule_ok_iff hplain.distinctKeys).2 ⟨hknown, action, _, _, _, _, condition,
          readAction_ok.2 ⟨text, hget, htext⟩, hrids, hrlimit, hgate, hrtarget, hrflat, hrcondition,
          rfl⟩⟩
  | _ => exact .error

theorem sameOutcome_addRules (hts : prt.utcTimestamp = rt.utcTimestamp) {allow : Bool}
    (enclosing : List (String × String)) {state : ParseState} {pythonState : Python.ParseState}
    (hstate : SameState rt.utcTimestamp state pythonState) {value : Yaml}
    (hplain : Plain .document value) :
    SameOutcome (SameState rt.utcTimestamp) (addRules rt allow enclosing state value)
      (Python.addRules prt allow enclosing pythonState value) := by
  cases value with
  | sequence entries =>
      refine SameOutcome.foldlM ?_ hstate
      intro state pythonState h entry hentry
      exact sameOutcome_addRule hts enclosing h (hplain.items entry hentry)
  | _ => exact .error

/-! ## Agents

The nested part of a document: agents, their tools, and the rules below, with the scope that
encloses them. -/

theorem onlyField_cases (hdistinct : fields.DistinctKeys) (name scope path : String) :
    (fields.KnownKeys [name] ∧
        fields.foldlM (onlyField name scope path) none = .ok (fields.get name)) ∨
      (¬ fields.KnownKeys [name] ∧
        ∃ e, fields.foldlM (onlyField name scope path) none = .error e) := by
  have hround : ∀ (acc acc' : Option Yaml) (entry : Yaml × Yaml),
      onlyField name scope path acc entry = .ok acc' ↔
        entry.1 = .string name ∧ acc' = some entry.2 := by
    intro acc acc' entry
    simp only [onlyField, bind_ok_iff, fieldName_ok]
    constructor
    · rintro ⟨field, hfield, h⟩
      split at h
      · next hname => exact ⟨hname ▸ hfield, (Except.ok.inj h).symm⟩
      · cases h
    · rintro ⟨hkey, rfl⟩
      exact ⟨name, hkey, if_pos rfl⟩
  refine ok_or_error (foldlM_isOk_iff (fun acc entry => ?_) fields none) (fun acc hrun => ?_)
  · simp [hround]
  · have hslot := Fields.foldlM_slot id name (fun value _ => some value) hdistinct
      (fun acc acc' entry hkey h => absurd ((hround acc acc' entry).1 h).1 hkey)
      (fun acc acc' value h => ((hround acc acc' _).1 h).2) hrun
    refine hslot.trans ?_
    cases fields.get name <;> rfl

/-- A configuration mapping with one required field, and what is done with the field. -/
theorem sameOutcome_config {α β : Type} {R : α → β → Prop} {place : Place} {value : Yaml}
    (hplain : Plain place value) {name : String} (hname : name ∉ ["start", "end", "time_window"])
    (description scope path pythonName code : String) (missing : PolicyError)
    (pythonMissing : Python.PolicyError) {rustNext : Yaml → Except PolicyError α}
    {pythonNext : Yaml → Except Python.PolicyError β}
    (hnext : ∀ field, Plain .document field → SameOutcome R (rustNext field) (pythonNext field)) :
    SameOutcome R
      (do
        let fields ← mappingOf value description
        let field ← fields.foldlM (onlyField name scope path) none
        let field ← okOr field missing
        rustNext field)
      (do
        let fields ← Python.mappingOf value pythonName code
        Python.rejectUnknownFields prt fields [name] pythonName code
        let field ← Python.required (fields.get name) pythonMissing
        pythonNext field) := by
  cases value with
  | mapping fields =>
      simp only [mappingOf, Python.mappingOf, Yaml.asMapping, ok_bind]
      have hpython := rejectUnknownFields_cases prt fields [name] pythonName code
      rcases onlyField_cases hplain.distinctKeys name scope path with
        ⟨hknown, hrun⟩ | ⟨hunknown, e, hrun⟩
      · obtain ⟨-, hcheck⟩ := hpython.resolve_right (fun h => h.1 hknown)
        rw [hrun, hcheck]
        simp only [ok_bind]
        cases hget : Fields.get fields name with
        | none => exact .error
        | some field => exact hnext field (hplain.field hname (Fields.mem_of_get hget))
      · obtain ⟨-, e', hcheck⟩ := hpython.resolve_left (fun h => hunknown h.1)
        rw [hrun, hcheck]
        exact .error
  | _ => exact .error

/-- The key of an agent or a tool, read by both parsers. -/
theorem sameOutcome_key (key : Yaml) (scope name code : String) :
    SameOutcome Eq (fieldName key scope) (Python.stringOf key name code) := by
  cases key with
  | string text => exact .ok rfl
  | _ => exact .error

variable {state : ParseState} {pythonState : Python.ParseState}

theorem sameOutcome_addTool (hts : prt.utcTimestamp = rt.utcTimestamp) {allow : Bool}
    (agentName : String) (hstate : SameState rt.utcTimestamp state pythonState)
    {entry : Yaml × Yaml} {place : Place} (hplain : Plain place entry.2) :
    SameOutcome (SameState rt.utcTimestamp) (addTool rt allow agentName state entry)
      (Python.addTool prt allow agentName pythonState entry) := by
  refine SameOutcome.bind (R := Eq) (sameOutcome_key _ _ _ _) ?_
  rintro toolName - rfl
  exact sameOutcome_config hplain (by decide) _ _ _ _ _ _ _ (fun rules hrules =>
    sameOutcome_addRules hts _ hstate hrules)

theorem sameOutcome_addAgent (hts : prt.utcTimestamp = rt.utcTimestamp) {allow : Bool}
    (hstate : SameState rt.utcTimestamp state pythonState) {entry : Yaml × Yaml} {place : Place}
    (hplain : Plain place entry.2) :
    SameOutcome (SameState rt.utcTimestamp) (addAgent rt allow state entry)
      (Python.addAgent prt allow pythonState entry) := by
  refine SameOutcome.bind (R := Eq) (sameOutcome_key _ _ _ _) ?_
  rintro agentName - rfl
  refine sameOutcome_config hplain (by decide) _ _ _ _ _ _ _ (fun tools htools => ?_)
  cases tools with
  | mapping tools =>
      refine SameOutcome.foldlM ?_ hstate
      intro state pythonState h tool htool
      exact sameOutcome_addTool hts agentName h (htools.entry htool).2
  | _ => exact .error

theorem sameOutcome_addAgents (hts : prt.utcTimestamp = rt.utcTimestamp) {allow : Bool}
    (hstate : SameState rt.utcTimestamp state pythonState) {agents : Yaml}
    (hplain : Plain .document agents) :
    SameOutcome (SameState rt.utcTimestamp) (addAgents rt allow state agents)
      (Python.addAgents prt allow pythonState agents) := by
  cases agents with
  | mapping agents =>
      refine SameOutcome.foldlM ?_ hstate
      intro state pythonState h agent hagent
      exact sameOutcome_addAgent hts h (hplain.entry hagent).2
  | _ => exact .error

/-! ## Documents

The top-level fields, the versions, and the decoders. -/

theorem globalField_key {acc acc' : Action} {entry : Yaml × Yaml}
    (h : globalField rt acc entry = .ok acc') : entry.1 = .string "default_action" := by
  simp only [globalField, bind_ok_iff, fieldName_ok] at h
  obtain ⟨field, hfield, h⟩ := h
  split at h
  · next hname => exact hname ▸ hfield
  · cases h

/-- The `global` mapping, before any other one was read. -/
theorem sameOutcome_parseGlobal {value : Yaml} (hplain : Plain .document value) :
    SameOutcome Eq (parseGlobal rt value) (Python.globalConfig prt .allow value) := by
  cases value with
  | mapping fields =>
      simp only [parseGlobal, Python.globalConfig, mappingOf, Python.mappingOf, Yaml.asMapping,
        ok_bind]
      rcases rejectUnknownFields_cases prt fields ["default_action"] "global" "invalid_field" with
        ⟨hknown, hcheck⟩ | ⟨hunknown, e, hcheck⟩
      · have hperm := Fields.perm_inOrder hplain.distinctKeys hknown (by decide)
        rw [hcheck, ok_bind]
        cases hget : Fields.get fields "default_action" with
        | none =>
            obtain rfl : fields = [] := by simpa [Fields.inOrder, hget] using hperm
            exact .ok rfl
        | some value =>
            obtain rfl : fields = [(.string "default_action", value)] := by
              simpa [Fields.inOrder, hget] using hperm
            rw [List.foldlM_cons]
            simp only [List.foldlM_nil, bind_pure]
            refine SameOutcome.of_ok_iff (fun action => ?_)
            rw [python_parseAction_ok]
            simp only [globalField, fieldName, Yaml.asStr, ok_bind, if_true, bind_ok_iff,
              stringOr_ok]
      · cases hrun : List.foldlM (globalField rt) .allow fields with
        | ok action =>
            refine absurd (fun entry hentry => ?_) hunknown
            exact ⟨_, by simp, foldlM_forall (fun _ _ _ h => globalField_key h) hrun entry hentry⟩
        | error e' =>
            rw [hcheck]
            exact .error
  | _ => exact .error

/-- The top-level fields of a document. -/
def topLevelNames : List String := ["version", "global", "rules", "agents"]

theorem topLevelField_key {allow : Bool} {acc acc' : Action × ParseState} {entry : Yaml × Yaml}
    (h : topLevelField rt allow acc entry = .ok acc') :
    ∃ name ∈ topLevelNames, entry.1 = .string name := by
  simp only [topLevelField, bind_ok_iff, fieldName_ok] at h
  obtain ⟨field, hfield, h⟩ := h
  refine ⟨field, ?_, hfield⟩
  by_contra hname
  simp only [topLevelNames, List.mem_cons, List.not_mem_nil, or_false, not_or] at hname
  obtain ⟨hversion, hglobal, hrules, hagents⟩ := hname
  rw [if_neg hversion, if_neg hglobal, if_neg hrules, if_neg hagents] at h
  cases h

/-- What both parsers know before the rest of a document: the default action is still the initial
one as long as a `global` mapping is to come. -/
structure SameDocument (rt : YamlRuntime) (rest : Fields) (rust : Action × ParseState)
    (python : Action × Python.ParseState) : Prop where
  defaultAction : python.1 = rust.1
  state : SameState rt.utcTimestamp rust.2 python.2
  initial : (∃ entry ∈ rest, entry.1 = .string "global") → rust.1 = .allow
  known : rest.KnownKeys topLevelNames
  distinct : rest.DistinctKeys
  plain : ∀ name value, (Yaml.string name, value) ∈ rest → name ∈ topLevelNames →
    Plain .document value

theorem SameDocument.next {entry : Yaml × Yaml} {rest : Fields} {rust rust' : Action × ParseState}
    {python python' : Action × Python.ParseState}
    (h : SameDocument rt (entry :: rest) rust python) (hdefault : python'.1 = rust'.1)
    (hstate : SameState rt.utcTimestamp rust'.2 python'.2)
    (hinitial : (∃ entry ∈ rest, entry.1 = .string "global") → rust'.1 = .allow) :
    SameDocument rt rest rust' python' where
  defaultAction := hdefault
  state := hstate
  initial := hinitial
  known := fun entry hentry => h.known entry (List.mem_cons_of_mem _ hentry)
  distinct := h.distinct.tail
  plain := fun name value hentry => h.plain name value (List.mem_cons_of_mem _ hentry)

/-- One top-level field, read by both parsers. -/
theorem sameOutcome_topLevelField (hts : prt.utcTimestamp = rt.utcTimestamp) {allow : Bool}
    {entry : Yaml × Yaml} {rest : Fields} {rust : Action × ParseState}
    {python : Action × Python.ParseState} (h : SameDocument rt (entry :: rest) rust python) :
    SameOutcome (SameDocument rt rest) (topLevelField rt allow rust entry)
      (Python.topLevelField prt allow python entry) := by
  obtain ⟨key, value⟩ := entry
  obtain ⟨name, hname, hkey⟩ := h.known (key, value) (by simp)
  obtain rfl : key = .string name := hkey
  have hplain := h.plain name value (by simp) hname
  have hlater : (∃ entry ∈ rest, entry.1 = .string "global") → rust.1 = .allow :=
    fun ⟨entry, hentry, hglobal⟩ => h.initial ⟨entry, List.mem_cons_of_mem _ hentry, hglobal⟩
  simp only [topLevelField, Python.topLevelField, fieldName, Yaml.asStr, ok_bind,
    Option.some.injEq]
  simp only [topLevelNames, List.mem_cons, List.not_mem_nil, or_false] at hname
  rcases hname with rfl | rfl | rfl | rfl
  · rw [if_pos rfl, if_pos rfl]
    exact .ok (h.next h.defaultAction h.state hlater)
  · -- no `global` came before, and none comes later
    rw [if_neg (by decide), if_pos rfl, if_neg (by decide), if_pos rfl]
    have hinitial : python.1 = .allow := by
      rw [h.defaultAction]
      exact h.initial ⟨(.string "global", value), by simp, rfl⟩
    rw [hinitial]
    refine SameOutcome.bind (R := Eq) (sameOutcome_parseGlobal hplain) ?_
    rintro action - rfl
    refine .ok (h.next rfl h.state ?_)
    rintro ⟨entry, hentry, hglobal⟩
    exact absurd hglobal (h.distinct.head_new entry hentry)
  · rw [if_neg (by decide), if_neg (by decide), if_pos rfl, if_neg (by decide),
      if_neg (by decide), if_pos rfl]
    exact SameOutcome.bind (sameOutcome_addRules hts [] h.state hplain)
      (fun state pythonState hstate => .ok (h.next h.defaultAction hstate hlater))
  · rw [if_neg (by decide), if_neg (by decide), if_neg (by decide), if_pos rfl,
      if_neg (by decide), if_neg (by decide), if_neg (by decide), if_pos rfl]
    exact SameOutcome.bind (sameOutcome_addAgents hts h.state hplain)
      (fun state pythonState hstate => .ok (h.next h.defaultAction hstate hlater))

/-- A document of one version: both parsers reject it, or both build the same engine. -/
theorem sameOutcome_parseVersion (hts : prt.utcTimestamp = rt.utcTimestamp)
    (hplain : Plain .document (.mapping fields)) (version : ℤ) (allow : Bool) :
    SameOutcome (SameEngine rt.utcTimestamp) (parseVersion rt (.mapping fields) version allow)
      (Python.parseVersion prt fields version allow) := by
  simp only [parseVersion, Python.parseVersion, mappingOf, Yaml.asMapping, ok_bind]
  rcases rejectUnknownFields_cases prt fields topLevelNames "policy" "invalid_field" with
    ⟨hknown, hcheck⟩ | ⟨hunknown, e, hcheck⟩
  · rw [topLevelNames] at hcheck
    rw [hcheck, ok_bind]
    have hstart : SameDocument rt fields (.allow, .empty) (.allow, .empty) := by
      refine ⟨rfl, .empty _, fun _ => rfl, hknown, hplain.distinctKeys, ?_⟩
      intro name value hentry hname
      refine hplain.field ?_ hentry
      simp only [topLevelNames, List.mem_cons, List.not_mem_nil, or_false] at hname
      rcases hname with rfl | rfl | rfl | rfl <;> decide
    have hloops := SameOutcome.foldlM_same (Q := SameDocument rt) (f := topLevelField rt allow)
      (g := Python.topLevelField prt allow)
      (fun entry rest rust python h => sameOutcome_topLevelField hts h) hstart
    refine hloops.bind ?_
    intro rust python h
    exact .ok ⟨h.state.rules, h.defaultAction, h.state.rateLimits, rfl⟩
  · rw [topLevelNames] at hcheck
    rw [hcheck]
    cases hrun : fields.foldlM (topLevelField rt allow) (.allow, .empty) with
    | ok acc =>
        exact absurd (foldlM_forall (fun _ _ _ h => topLevelField_key h) hrun) hunknown
    | error e' => exact .error

/-- The version check, for a version that fits `i64`. -/
theorem sameOutcome_versioned {α β : Type} {R : α → β → Prop} {policy : Yaml} (expected : ℤ)
    (hrange : -2 ^ 63 ≤ expected ∧ expected < 2 ^ 63) {error : ℤ → PolicyError}
    {pythonError : Python.PolicyError} {rustNext : Except PolicyError α}
    {pythonNext : Fields → Except Python.PolicyError β}
    (hnext : ∀ fields, policy = .mapping fields → SameOutcome R rustNext (pythonNext fields)) :
    SameOutcome R
      (do
        let version ← declaredVersion policy
        if version = expected then rustNext else .error (error version))
      (do
        let (fields, version) ← Python.loadPolicy policy
        if version ≠ expected then .error pythonError else pythonNext fields) := by
  cases policy with
  | mapping fields =>
      simp only [declaredVersion, Python.loadPolicy, mappingOf, Python.mappingOf, Yaml.asMapping,
        ok_bind]
      cases Fields.get fields "version" with
      | none => exact .error
      | some value =>
          cases value with
          | int version =>
              simp only [Yaml.asI64, ok_bind]
              by_cases hversion : version = expected
              · subst hversion
                rw [if_pos hrange]
                simpa using hnext fields rfl
              · rw [if_pos hversion]
                by_cases hfits : -2 ^ 63 ≤ version ∧ version < 2 ^ 63
                · rw [if_pos hfits, ok_bind, if_neg hversion]
                  exact .error
                · rw [if_neg hfits]
                  exact .error
          | _ => exact .error
  | _ => exact .error

theorem sameOutcome_parsePolicy (hts : prt.utcTimestamp = rt.utcTimestamp) {policy : Yaml}
    (hplain : Plain .document policy) :
    SameOutcome (SameEngine rt.utcTimestamp) (parsePolicy rt policy)
      (Python.parsePolicy prt policy) := by
  refine sameOutcome_versioned 1 (by decide) ?_
  rintro fields rfl
  exact sameOutcome_parseVersion hts hplain 1 false

theorem sameOutcome_parseRateLimited (hts : prt.utcTimestamp = rt.utcTimestamp) {policy : Yaml}
    (hplain : Plain .document policy) :
    SameOutcome (SameEngine rt.utcTimestamp) (parseRateLimited rt policy)
      (Python.parseRateLimited prt policy) := by
  refine sameOutcome_versioned 2 (by decide) ?_
  rintro fields rfl
  exact sameOutcome_parseVersion hts hplain 2 true

end

/-- **The parsers accept the same policies and build the same engine.** On a plain document the
parsers of version 1 both fail or both succeed with the same engine, and so do the parsers of
version 2. Of the parts of the YAML libraries only the function that reads timestamps is taken to
be the same. -/
theorem parsers_agree (rt : YamlRuntime) (prt : Python.YamlRuntime)
    (hts : prt.utcTimestamp = rt.utcTimestamp) (policy : Yaml) (hplain : Plain .document policy) :
    SameOutcome (SameEngine rt.utcTimestamp) (parsePolicy rt policy)
        (Python.parsePolicy prt policy) ∧
      SameOutcome (SameEngine rt.utcTimestamp) (parseRateLimited rt policy)
        (Python.parseRateLimited prt policy) := by
  constructor
  · refine sameOutcome_versioned 1 (by decide) ?_
    rintro fields rfl
    exact sameOutcome_parseVersion hts hplain 1 false
  · refine sameOutcome_versioned 2 (by decide) ?_
    rintro fields rfl
    exact sameOutcome_parseVersion hts hplain 2 true

/-- The decoders of both runtimes read the text as the same plain document, or both refuse it. -/
inductive DecodedAlike (decode decode' : String → Except String Yaml) (text : String) : Prop
  | read {policy : Yaml} (hrust : decode text = .ok policy) (hpython : decode' text = .ok policy)
      (hplain : Plain .document policy)
  | refused {error error' : String} (hrust : decode text = .error error)
      (hpython : decode' text = .error error')

/-- The sample policy as a version 1 document, under an agent and a tool. -/
def sampleDocument : Yaml :=
  .mapping [
    (.string "version", .int 1),
    (.string "global", .mapping [(.string "default_action", .string "deny")]),
    (.string "agents", .mapping [(.string "builder", .mapping [
      (.string "tools", .mapping [(.string "shell", .mapping [
        (.string "rules", .sequence [.mapping [
          (.string "id", .string "listing"),
          (.string "action", .string "allow"),
          (.string "target", .mapping [(.string "context", .mapping [
            (.string "env", .string "staging")])]),
          (.string "condition", .mapping [(.string "all", .sequence [
            .mapping [(.string "args_match", .string "^ls .*"),
              (.string "time_window", .mapping [
                (.string "start", .string "1970-01-01T00:00:00Z"),
                (.string "end", .string "1970-01-01T00:00:10Z")])],
            .mapping [(.string "not", .mapping [
              (.string "path_pattern", .string "/etc/*")])]])])]])])])])])]

instance (text : String) : Decidable (Unambiguous text) := inferInstanceAs (Decidable (_ ∧ _))

theorem sampleDocument_plain : Plain .document sampleDocument := by
  simp [sampleDocument, Plain, PlainEntries, PlainItems, Place.child, Fields.DistinctKeys,
    Yaml.asStr]
  decide +kernel

theorem parsers_agree_sample :
    ∃ rust python,
      parsePolicy ⟨fun _ => "", sampleTimestamp⟩ sampleDocument = .ok rust ∧
        Python.parsePolicy ⟨fun _ => "", sampleTimestamp⟩ sampleDocument = .ok python ∧
        SameEngine sampleTimestamp rust python := by
  have h := (parsers_agree ⟨fun _ => "", sampleTimestamp⟩ ⟨fun _ => "", sampleTimestamp⟩ rfl
    sampleDocument sampleDocument_plain).1
  obtain ⟨rust, hrust⟩ : ∃ rust,
      parsePolicy ⟨fun _ => "", sampleTimestamp⟩ sampleDocument = .ok rust :=
    exists_ok (by decide +kernel)
  obtain ⟨python, hpython, hsame⟩ := h.exists_right hrust
  exact ⟨rust, python, hrust, hpython, hsame⟩

end HpGuardian

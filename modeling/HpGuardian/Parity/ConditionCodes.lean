import HpGuardian.Framework.Stops
import HpGuardian.Parity.Parser

/-!
# The codes of refused conditions

Every check of either parser reports one code.  The checks of a condition come in the same order in
both parsers, except that Python looks for unknown fields before it reads a mapping of leaves and
Rust reads the leaves in document order; so an unknown field can stay hidden behind a pattern that
the Rust parser refuses first, and then the codes differ (`judged_parseConditionNode`).

That is the only difference within a condition.  `LeavesAgree` says of a mapping of leaves that it
does not arise, and `ConditionAgrees` says so of the mapping at which the reading of a whole
condition stops.  Which mapping that is follows from the document alone: it is the first, in
document order, that is refused for its own leaves, where what comes before it is valid and within
the bounds on depth and number of nodes (`RefusedLeaves`).  The predicate follows the tree of the
document and does not mention a parser; that the parsers stop there is shown afterwards
(`RefusedLeaves.refused`).

The proof is an induction over the document as both parsers read it.  A composition is judged by
its operand, the items of a sequence by the first at which both parsers stop, and a mapping of
leaves by itself: as long as all its fields are known, both parsers stop at the same entry with the
same code, and behind an unknown field the codes are equal iff the Rust parser does not meet a
pattern that it refuses first.
-/

namespace HpGuardian

open Framework

/-! ## The codes of single checks

Each check by itself, in both parsers.  The codes are what the two have in common; the texts of the
errors, and where they are attached, differ. -/

/-- Every error of the Rust parser's step has the code. A step may be a single check or a part of
the parser all of whose checks report alike. -/
abbrev HasCode {α : Type} (code : String) (x : Except PolicyError α) : Prop :=
  ErrorsAre (fun e => e.code = code) x

/-- Every error of the Python parser's step has the code. -/
abbrev Python.HasCode {α : Type} (code : String) (x : Except Python.PolicyError α) : Prop :=
  ErrorsAre (fun e => e.code = code) x

section Checks

variable {rt : YamlRuntime} {prt : Python.YamlRuntime}

theorem fieldName_code (field : Yaml) (scope : String) :
    HasCode "invalid_field" (fieldName field scope) := by
  unfold fieldName
  split
  · exact .ok _
  · exact .error rfl

theorem orElseError_code {α : Type} (result : Except PolicyError α) (error : PolicyError) :
    HasCode error.code (orElseError result error) := by
  cases result with
  | ok value => exact .ok _
  | error e => exact .error rfl

theorem stringOr_code (value : Yaml) (error : PolicyError) :
    HasCode error.code (stringOr value error) := by
  unfold stringOr
  split
  · exact .ok _
  · exact .error rfl

theorem unambiguousStringOr_code (value : Yaml) (notString ambiguous : PolicyError)
    (h : ambiguous.code = notString.code) :
    HasCode notString.code (unambiguousStringOr value notString ambiguous) := by
  refine (stringOr_code value notString).bind (fun text => ?_)
  split
  · exact .error h
  · exact .ok _

theorem parseAction_code (action : String) : HasCode "invalid_action" (parseAction action) := by
  unfold parseAction
  split
  case h_7 => exact .error rfl
  all_goals exact .ok _

theorem contextEntry_code (parsed : StringMap) (entry : Yaml × Yaml) :
    HasCode "invalid_target" (contextEntry parsed entry) :=
  (orElseError_code _ (.invalidTarget "context")).bind (fun key =>
    (unambiguousStringOr_code entry.2 (.invalidTarget ("context." ++ key)) _ rfl).bind
      (fun _ => .ok _))

theorem targetField_code (parsed : StringMap) (entry : Yaml × Yaml) :
    HasCode "invalid_target" (targetField parsed entry) := by
  refine (orElseError_code _ (.invalidTarget "target")).bind (fun key => ?_)
  split_ifs
  · exact (unambiguousStringOr_code _ (.invalidTarget key) _ rfl).bind (fun _ => .ok _)
  · exact (orElseError_code _ (.invalidTarget "context")).bind (fun context =>
      .foldlM contextEntry_code context parsed)
  · exact .error rfl

theorem parseTarget_code (target : Option Yaml) :
    HasCode "invalid_target" (parseTarget target) := by
  cases target with
  | none => exact .ok _
  | some target =>
      exact (orElseError_code _ (.invalidTarget "target")).bind (fun fields =>
        .foldlM targetField_code fields ∅)

theorem addEnclosingTarget_code (target : StringMap) (enclosing : String × String) :
    HasCode "conflicting_target" (addEnclosingTarget target enclosing) := by
  unfold addEnclosingTarget
  split
  · split
    · exact .error rfl
    · exact .ok _
  · exact .ok _

theorem parseTimeWindow_code (value : Yaml) :
    HasCode "invalid_condition" (parseTimeWindow rt value) := by
  have hfield : ∀ acc entry, HasCode "invalid_condition" (timeWindowField rt acc entry) := by
    intro acc entry
    refine (orElseError_code _ (.invalidCondition "time_window")).bind (fun field =>
      (stringOr_code _ (.invalidCondition "time_window")).bind (fun text => ?_))
    have hinstant : HasCode "invalid_condition" (parseUtcTimestamp rt text) := by
      unfold parseUtcTimestamp
      split
      · exact .ok _
      · exact .error rfl
    split_ifs
    · exact hinstant.bind (fun _ => .ok _)
    · exact hinstant.bind (fun _ => .ok _)
    · exact .error rfl
  refine (orElseError_code _ (.invalidCondition "time_window")).bind (fun fields => ?_)
  split
  · exact .error rfl
  · refine (ErrorsAre.foldlM hfield fields _).bind (fun acc => ?_)
    obtain ⟨_ | start, _ | stop⟩ := acc
    case some.some =>
      dsimp only
      split
      · exact .ok _
      · exact .error rfl
    all_goals exact .error rfl

theorem insertRuleId_code (ruleIds : Finset String) (id : Option String) :
    HasCode "invalid_field" (insertRuleId ruleIds id) := by
  unfold insertRuleId
  split
  · exact .ok _
  · split
    · exact .error rfl
    · exact .ok _

theorem onlyField_code (name scope path : String) (acc : Option Yaml) (entry : Yaml × Yaml) :
    HasCode "invalid_field" (onlyField name scope path acc entry) := by
  refine (fieldName_code _ _).bind (fun field => ?_)
  split
  · exact .ok _
  · exact .error rfl

theorem python_mappingOf_code (value : Yaml) (name code : String) :
    Python.HasCode code (Python.mappingOf value name code) := by
  unfold Python.mappingOf
  split
  · exact .ok _
  · exact .error rfl

theorem python_stringOf_code (value : Yaml) (name code : String) :
    Python.HasCode code (Python.stringOf value name code) := by
  unfold Python.stringOf
  split
  · exact .ok _
  · exact .error rfl

theorem python_unambiguousString_code (value : Yaml) (name code : String) :
    Python.HasCode code (Python.unambiguousString prt value name code) := by
  refine (python_stringOf_code _ _ _).bind (fun text => ?_)
  split
  · exact .error rfl
  · exact .ok _

theorem python_rejectUnknownFields_code (fields : Fields) (allowed : List String)
    (name code : String) :
    Python.HasCode code (Python.rejectUnknownFields prt fields allowed name code) := by
  unfold Python.rejectUnknownFields
  split
  · exact .error rfl
  · exact .ok _

theorem python_parseAction_code (value : Yaml) :
    Python.HasCode "invalid_action" (Python.parseAction prt value) := by
  unfold Python.parseAction
  split
  · exact .ok _
  · exact .error rfl

theorem python_parseTarget_code (value : Yaml) :
    Python.HasCode "invalid_target" (Python.parseTarget prt value) := by
  have hstring : ∀ target parsed key,
      Python.HasCode "invalid_target" (Python.targetString prt target parsed key) := by
    intro target parsed key
    unfold Python.targetString
    split
    · exact .ok _
    · exact (python_unambiguousString_code _ _ _).bind (fun _ => .ok _)
  have hcontext : ∀ parsed entry,
      Python.HasCode "invalid_target" (Python.contextEntry prt parsed entry) := fun parsed entry =>
    (python_unambiguousString_code _ _ _).bind (fun _ =>
      (python_unambiguousString_code _ _ _).bind (fun _ => .ok _))
  refine (python_mappingOf_code _ _ _).bind (fun target =>
    (python_rejectUnknownFields_code _ _ _ _).bind (fun _ =>
      (ErrorsAre.foldlM (hstring target) _ _).bind (fun parsed => ?_)))
  split
  · exact .ok _
  · exact (python_mappingOf_code _ _ _).bind (fun context => .foldlM hcontext context parsed)

theorem python_addEnclosingTarget_code (target : StringMap) (enclosing : String × String) :
    Python.HasCode "conflicting_target" (Python.addEnclosingTarget target enclosing) := by
  unfold Python.addEnclosingTarget
  split
  · exact .error rfl
  · exact .ok _

theorem python_addRuleId_code (seenIds : Finset String) (id : Option Yaml) :
    Python.HasCode "invalid_field" (Python.addRuleId prt seenIds id) := by
  unfold Python.addRuleId
  split
  · exact .ok _
  · refine (python_unambiguousString_code _ _ _).bind (fun text => ?_)
    split
    · exact .error rfl
    · exact .ok _

end Checks

/-! ## Conditions

The leaves at which a condition is refused, and the codes there.  The relation is defined on
documents first and connected with the parser afterwards. -/

/-- The two errors have the same code. -/
def SameCode (rust : PolicyError) (python : Python.PolicyError) : Prop := rust.code = python.code

section Conditions

variable (rt : YamlRuntime)

mutual

/-- The mapping of leaves for which a condition document is refused.  What comes before it in
document order is valid and keeps within the bounds, there is room for the nodes above it and for
itself, and one of its entries is no valid leaf. -/
inductive RefusedLeaves : Yaml → ℕ → ℕ → Fields → Prop
  | leaves {fields : Fields} {depth nodes : ℕ} (hroom : WithinBounds depth nodes 1 1)
      (hoperator : booleanOperator fields = none)
      (hrefused : ¬ ∀ entry ∈ fields, ValidLeaf rt entry) :
      RefusedLeaves (.mapping fields) depth nodes fields
  | children {operator : String} {items : List Yaml} {depth nodes : ℕ} {leaves : Fields}
      (hoperator : operator = "all" ∨ operator = "any") (hroom : WithinBounds depth nodes 1 1)
      (h : RefusedChild items (depth + 1) (nodes + 1) leaves) :
      RefusedLeaves (.mapping [(.string operator, .sequence items)]) depth nodes leaves
  | not {operand : Yaml} {depth nodes : ℕ} {leaves : Fields}
      (hroom : WithinBounds depth nodes 1 1)
      (h : RefusedLeaves operand (depth + 1) (nodes + 1) leaves) :
      RefusedLeaves (.mapping [(.string "not", operand)]) depth nodes leaves

/-- The same for the items of an `all` or `any`: those before the refused one stand for conditions
that fit. -/
inductive RefusedChild : List Yaml → ℕ → ℕ → Fields → Prop
  | here {item : Yaml} {items : List Yaml} {depth nodes : ℕ} {leaves : Fields}
      (h : RefusedLeaves item depth nodes leaves) : RefusedChild (item :: items) depth nodes leaves
  | later {item : Yaml} {items : List Yaml} {depth nodes : ℕ} {leaves : Fields} {child : Condition}
      (hchild : Denotes rt item child)
      (hroom : WithinBounds depth nodes child.levels child.nodes)
      (h : RefusedChild items depth (nodes + child.nodes) leaves) :
      RefusedChild (item :: items) depth nodes leaves

end

/-- A mapping of leaves has no unknown field, or its first entry that is no valid leaf is not the
text of an `args_match` pattern. -/
def LeavesAgree (fields : Fields) : Prop :=
  fields.KnownKeys Python.conditionFields ∨
    AtFirstRefused (fun _ => ValidLeaf rt)
      (fun _ entry => entry.1.asStr = some "args_match" → entry.2.asStr = none) fields

/-- The leaves for which a condition is refused do not hide an unknown field behind a pattern. Of
an accepted condition, or of none, nothing is asked. -/
def ConditionAgrees (condition : Option Yaml) : Prop :=
  ∀ value ∈ condition, ∀ leaves, RefusedLeaves rt value 1 0 leaves → LeavesAgree rt leaves

end Conditions

/-! ### The leaves and the parser -/

section Leaves

variable {rt : YamlRuntime} {value item : Yaml} {items : List Yaml} {fields leaves : Fields}
  {depth nodes : ℕ}

/-- What the parser reads stands for a condition that fits, and its nodes are counted. -/
theorem within_of_parseCondition_ok {read : Condition × ℕ}
    (h : parseCondition rt value depth nodes = .ok read) :
    Denotes rt value read.1 ∧ WithinBounds depth nodes read.1.levels read.1.nodes ∧
      read.2 = nodes + read.1.nodes := by
  have hdenotes := denotes_of_parseCondition_ok h
  have hwithin := hdenotes.readsWithin depth nodes
  by_cases hfit : WithinBounds depth nodes read.1.levels read.1.nodes
  · refine ⟨hdenotes, hfit, ?_⟩
    have hread := h.symm.trans (hwithin.fits hfit)
    exact congrArg Prod.snd (Except.ok.inj hread)
  · obtain ⟨text, herror⟩ := hwithin.exceeds hfit
    rw [h] at herror
    cases herror

theorem withinBounds_node :
    WithinBounds depth nodes 1 1 ↔ depth ≤ maxConditionDepth ∧ nodes + 1 ≤ maxConditionNodes := by
  rw [WithinBounds, Nat.add_le_add_iff_right]

theorem RefusedLeaves.room (h : RefusedLeaves rt value depth nodes leaves) :
    depth ≤ maxConditionDepth ∧ nodes + 1 ≤ maxConditionNodes := by
  cases h with
  | leaves hroom => exact withinBounds_node.1 hroom
  | children _ hroom => exact withinBounds_node.1 hroom
  | not hroom => exact withinBounds_node.1 hroom

mutual

/-- A document with refused leaves is refused. -/
theorem RefusedLeaves.refused {value : Yaml} {depth nodes : ℕ} {leaves : Fields} :
    RefusedLeaves rt value depth nodes leaves →
      ∀ read, parseCondition rt value depth nodes ≠ .ok read
  | .leaves hroom hoperator hrefused, read, hrun => by
      obtain ⟨hdepth, hnodes⟩ := withinBounds_node.1 hroom
      rw [parseCondition_leaves hoperator hdepth hnodes, bind_ok_iff] at hrun
      obtain ⟨parsed, hleaves, -⟩ := hrun
      exact hrefused (leafFields_values hleaves).valid
  | .children hoperator hroom h, read, hrun => by
      obtain ⟨hdepth, hnodes⟩ := withinBounds_node.1 hroom
      rw [parseCondition_sequence hoperator hdepth hnodes, bind_ok_iff] at hrun
      obtain ⟨below, hbelow, -⟩ := hrun
      exact h.refused below hbelow
  | .not hroom h, read, hrun => by
      obtain ⟨hdepth, hnodes⟩ := withinBounds_node.1 hroom
      rw [parseCondition_not hdepth hnodes, bind_ok_iff] at hrun
      obtain ⟨below, hbelow, -⟩ := hrun
      exact h.refused below hbelow

theorem RefusedChild.refused {items : List Yaml} {depth nodes : ℕ} {leaves : Fields} :
    RefusedChild rt items depth nodes leaves →
      ∀ read, parseChildren rt items depth nodes ≠ .ok read
  | .here h, read, hrun => by
      rw [parseChildren, bind_ok_iff] at hrun
      obtain ⟨child, hchild, -⟩ := hrun
      exact h.refused child hchild
  | .later hchild hroom h, read, hrun => by
      rw [parseChildren, (hchild.readsWithin _ _).fits hroom, ok_bind, bind_ok_iff] at hrun
      obtain ⟨rest, hrest, -⟩ := hrun
      exact h.refused rest hrest

end

/-- The item is accepted, so the refused one comes later. -/
theorem refusedChild_cons_ok {read : Condition × ℕ}
    (h : parseCondition rt item depth nodes = .ok read) :
    RefusedChild rt (item :: items) depth nodes leaves ↔
      RefusedChild rt items depth read.2 leaves := by
  obtain ⟨hdenotes, hfit, hcount⟩ := within_of_parseCondition_ok h
  constructor
  · intro hrefused
    cases hrefused with
    | here hitem => exact absurd h (hitem.refused read)
    | later hchild hroom hitems =>
        obtain rfl := Except.ok.inj (h.symm.trans ((hchild.readsWithin depth nodes).fits hroom))
        exact hitems
  · intro hrefused
    rw [hcount] at hrefused
    exact .later hdenotes hfit hrefused

/-- The item is refused, so no later one is looked at. -/
theorem refusedChild_cons_error {e : PolicyError}
    (h : parseCondition rt item depth nodes = .error e) :
    RefusedChild rt (item :: items) depth nodes leaves ↔
      RefusedLeaves rt item depth nodes leaves := by
  constructor
  · intro hrefused
    cases hrefused with
    | here hitem => exact hitem
    | later hchild hroom =>
        rw [(hchild.readsWithin depth nodes).fits hroom] at h
        cases h
  · exact .here

/-- Without a boolean operator a mapping is refused for its own leaves. -/
theorem refusedLeaves_of_none (hoperator : booleanOperator fields = none)
    (h : RefusedLeaves rt (.mapping fields) depth nodes leaves) : leaves = fields := by
  cases h with
  | leaves => rfl
  | children hname =>
      rw [booleanOperator_singleton (by rcases hname with rfl | rfl <;> simp)] at hoperator
      cases hoperator
  | not =>
      rw [booleanOperator_singleton (by simp)] at hoperator
      cases hoperator

/-- A boolean operator beside other entries is refused before any leaves. -/
theorem not_refusedLeaves_of_length {operator : String}
    (hoperator : booleanOperator fields = some operator) (hlength : fields.length ≠ 1) :
    ¬ RefusedLeaves rt (.mapping fields) depth nodes leaves := by
  intro h
  cases h with
  | leaves _ hnone =>
      rw [hoperator] at hnone
      cases hnone
  | children => exact hlength rfl
  | not => exact hlength rfl

/-- The leaves below an `all` or `any`. -/
theorem refusedLeaves_children {operator : String}
    (hoperator : operator = "all" ∨ operator = "any") (hdepth : depth ≤ maxConditionDepth)
    (hnodes : nodes + 1 ≤ maxConditionNodes) :
    RefusedLeaves rt (.mapping [(.string operator, .sequence items)]) depth nodes leaves ↔
      RefusedChild rt items (depth + 1) (nodes + 1) leaves := by
  constructor
  · intro h
    cases h with
    | leaves _ hnone =>
        rw [booleanOperator_singleton (by rcases hoperator with rfl | rfl <;> simp)] at hnone
        cases hnone
    | children _ _ h => exact h
    | not => simp at hoperator
  · exact .children hoperator (withinBounds_node.2 ⟨hdepth, hnodes⟩)

/-- The leaves below a `not`. -/
theorem refusedLeaves_not (hdepth : depth ≤ maxConditionDepth)
    (hnodes : nodes + 1 ≤ maxConditionNodes) :
    RefusedLeaves rt (.mapping [(.string "not", item)]) depth nodes leaves ↔
      RefusedLeaves rt item (depth + 1) (nodes + 1) leaves := by
  constructor
  · intro h
    cases h with
    | leaves _ hnone =>
        rw [booleanOperator_singleton (by simp)] at hnone
        cases hnone
    | children hname => simp at hname
    | not _ h => exact h
  · exact .not (withinBounds_node.2 ⟨hdepth, hnodes⟩)

end Leaves

section Conditions

variable {rt : YamlRuntime} {prt : Python.YamlRuntime} {fields : Fields}

/-- The code of a refused leaf. -/
def leafCode (entry : Yaml × Yaml) : String :=
  if entry.1.asStr = some "args_match" ∧ entry.2.asStr.isSome then "invalid_regex"
  else "invalid_condition"

theorem leafField_code {entry : Yaml × Yaml}
    (hplain : Plain (Place.child .document entry.1) entry.2)
    (acc : LeafFields) : HasCode (leafCode entry) (leafField rt acc entry) := by
  obtain ⟨key, value⟩ := entry
  cases key with
  | string name =>
      by_cases hargs : name = "args_match"
      · subst hargs
        cases value with
        | string text =>
            have hread := (@unambiguousStringOr_ok (.string text) (.invalidCondition "args_match")
              (.invalidCondition "args_match") text).2
              ⟨rfl, (hplain.unambiguous (Place.child_document_ne _)).1⟩
            simp only [leafField, fieldName, Yaml.asStr, orElseError, Except.mapError, ok_bind,
              if_true, hread]
            split
            · exact .ok _
            · exact .error rfl
        | _ => exact .error rfl
      · have hcode : leafCode (.string name, value) = "invalid_condition" := by
          simp [leafCode, Yaml.asStr, hargs]
        rw [hcode]
        simp only [leafField, fieldName, Yaml.asStr, orElseError, Except.mapError, ok_bind,
          if_neg hargs]
        split_ifs
        · exact (unambiguousStringOr_code _ (.invalidCondition name) _ rfl).bind (fun _ => .ok _)
        · exact (parseTimeWindow_code value).bind (fun _ => .ok _)
        · exact .error rfl
  | _ => exact .error rfl

theorem python_leafField_code {name : String} {value : Yaml}
    (hplain : Plain (Place.child .document (.string name)) value)
    (parsed : List (String × Python.Operand)) :
    Python.HasCode (leafCode (.string name, value))
      (Python.leafField prt parsed (.string name, value)) := by
  by_cases hargs : name = "args_match"
  · subst hargs
    cases value with
    | string text =>
        have hread : ∀ name code,
            Python.unambiguousString prt (.string text) name code = .ok text := by
          intro name code
          simp [Python.unambiguousString, Python.stringOf, Yaml.asStr,
            (hplain.unambiguous (Place.child_document_ne _)).2]
        simp only [Python.leafField, Python.stringOf, Yaml.asStr, ok_bind, if_true, hread]
        split
        · exact .ok _
        · exact .error rfl
    | _ => exact .error rfl
  · have hcode : leafCode (.string name, value) = "invalid_condition" := by
      simp [leafCode, Yaml.asStr, hargs]
    rw [hcode]
    simp only [Python.leafField, Python.stringOf, Yaml.asStr, ok_bind, if_neg hargs]
    split
    · exact (python_unambiguousString_code _ _ _).bind (fun _ => .ok _)
    · split
      · exact .ok _
      · exact .error rfl

/-- On known leaves both parsers stop at the same entry, with the same code. -/
theorem judged_leaves (hts : prt.utcTimestamp = rt.utcTimestamp)
    (hplain : Plain .document (.mapping fields))
    (hknown : fields.KnownKeys ["args_match", "path_pattern", "time_window"]) :
    Judged SameCode True (fields.foldlM (leafField rt) ⟨none, none, none⟩)
      (fields.foldlM (Python.leafField prt) []) := by
  have hcome : LeavesToCome fields [] :=
    ⟨hknown, hplain.distinctKeys, fun entry hentry => (hplain.entry hentry).2, by simp⟩
  have hloops : Judged SameCode
      (AtFirstError (leafField rt) (fun _ _ => True) ⟨none, none, none⟩ fields) _ _ :=
    Judged.foldlM_same (g := Python.leafField prt)
    (Q := fun rest acc entries =>
      SameLeaves rt.utcTimestamp acc.argsMatch acc.pathPattern acc.timeWindow entries ∧
        LeavesToCome rest entries)
    (fun entry rest acc entries h => sameOutcome_leafField hts h.1 h.2)
    (fun entry rest acc entries h => by
      have hvalue := h.2.plain entry (by simp)
      obtain ⟨name, -, hkey⟩ := h.2.known entry (by simp)
      obtain ⟨key, value⟩ := entry
      obtain rfl : key = .string name := hkey
      exact .of_errorsAre (leafField_code hvalue acc) (python_leafField_code hvalue entries)
        (fun e e' he he' => he.trans he'.symm))
    ⟨sameLeaves_nil, hcome⟩
  exact hloops.congr (iff_true_intro (atFirstError_of_forall (fun _ _ => trivial) _ _))

/-- Behind an unknown field, the codes are equal iff the Rust parser does not stop at a pattern
first. -/
theorem leaves_code_iff (hplain : Plain .document (.mapping fields)) {e : PolicyError}
    (h : fields.foldlM (leafField rt) ⟨none, none, none⟩ = .error e) :
    e.code = "invalid_condition" ↔
      AtFirstRefused (fun _ => ValidLeaf rt)
        (fun _ entry => entry.1.asStr = some "args_match" → entry.2.asStr = none) fields := by
  obtain ⟨acc, entry, hentry, herror, hat⟩ := exists_first_error h
  rw [← atFirstError_iff_of_isOk leafField_isOk, hat,
    leafField_code (hplain.entry hentry).2 acc e herror, leafCode]
  split_ifs with hpattern
  · simp [hpattern.1, Option.ne_none_iff_isSome.2 hpattern.2]
  · simp only [true_iff]
    intro hargs
    simpa [hargs] using hpattern

/-- The codes for a condition are equal iff the leaves at which its reading stops agree. The depth
and the number of nodes at which the reading starts are arbitrary, as the induction needs. -/
def ConditionJudged (rt : YamlRuntime) (prt : Python.YamlRuntime) (value : Yaml)
    (depth nodes : ℕ) : Prop :=
  Judged SameCode (∀ leaves, RefusedLeaves rt value depth nodes leaves → LeavesAgree rt leaves)
    (parseCondition rt value depth nodes) (Python.parseConditionNode prt value depth nodes)

theorem python_unknownCondition_code {e : Python.PolicyError} {depth nodes : ℕ}
    (hunknown : ¬ fields.KnownKeys Python.conditionFields)
    (h : Python.parseConditionNode prt (.mapping fields) depth nodes = .error e) :
    e.code = "invalid_condition" := by
  rw [Python.parseConditionNode] at h
  obtain ⟨-, e', hcheck⟩ := (rejectUnknownFields_cases prt fields Python.conditionFields
    "condition" "invalid_condition").resolve_left (fun h => hunknown h.1)
  rw [hcheck] at h
  obtain rfl := Except.error.inj h
  exact python_rejectUnknownFields_code _ _ _ _ _ hcheck

/-- Neither parser reads anything but a mapping as a condition. -/
theorem judged_notMapping {value : Yaml} (hvalue : value.asMapping = none) (depth nodes : ℕ) :
    ConditionJudged rt prt value depth nodes := by
  intro e e' he he'
  rw [parseCondition.eq_def] at he
  rw [Python.parseConditionNode.eq_def] at he'
  cases value with
  | mapping fields => cases hvalue
  | _ =>
      dsimp only at he he'
      obtain rfl := Except.error.inj he'
      have hcode : e.code = "invalid_condition" := by
        split_ifs at he <;> (obtain rfl := Except.error.inj he; rfl)
      refine iff_of_true hcode (fun leaves hrefused => ?_)
      cases hrefused

/-- The children of a composition, when the codes for each are judged. -/
theorem judged_parseChildren {items : List Yaml}
    (hsame : ∀ item ∈ items, ∀ depth nodes,
      SameOutcome (SameParsed rt.utcTimestamp) (parseCondition rt item depth nodes)
        (Python.parseConditionNode prt item depth nodes))
    (ih : ∀ item ∈ items, ∀ depth nodes, ConditionJudged rt prt item depth nodes)
    (depth nodes : ℕ) :
    Judged SameCode (∀ leaves, RefusedChild rt items depth nodes leaves → LeavesAgree rt leaves)
      (parseChildren rt items depth nodes) (Python.parseChildren prt items depth nodes) := by
  induction items generalizing nodes with
  | nil =>
      rw [parseChildren]
      exact .ok_left _
  | cons item items ihitems =>
      obtain ⟨hsameItem, hsameItems⟩ := List.forall_mem_cons.1 hsame
      obtain ⟨hitem, hitems⟩ := List.forall_mem_cons.1 ih
      have houtcome := hsameItem depth nodes
      have hjudged := hitem depth nodes
      rw [parseChildren, Python.parseChildren]
      unfold ConditionJudged at hjudged
      generalize hrust : parseCondition rt item depth nodes = rust at houtcome hjudged ⊢
      generalize Python.parseConditionNode prt item depth nodes = python at houtcome hjudged ⊢
      cases houtcome with
      | @error e e' =>
          simp only [refusedChild_cons_error hrust]
          exact .error (hjudged e e' rfl rfl)
      | @ok rust python h =>
          simp only [refusedChild_cons_ok hrust]
          obtain ⟨child, rustNodes⟩ := rust
          obtain ⟨pythonChild, nodes'⟩ := python
          obtain ⟨-, hnodes⟩ := h
          obtain rfl : nodes' = rustNodes := hnodes
          have hrest := ihitems hsameItems hitems nodes'
          simp only [bind, Except.bind]
          intro e e' he he'
          refine hrest e e' ?_ ?_
          · cases hrun : parseChildren rt items depth nodes' with
            | error d => rwa [hrun] at he
            | ok parsed =>
                rw [hrun] at he
                cases he
          · cases hrun : Python.parseChildren prt items depth nodes' with
            | error d => rwa [hrun] at he'
            | ok parsed =>
                rw [hrun] at he'
                cases he'

/-- A condition mapping with one boolean operator, when the codes for its operand are judged. -/
theorem judged_operator {operator : String} {operand : Yaml} {depth nodes : ℕ}
    (hoperator : operator ∈ ["all", "any", "not"])
    (hoperand : ConditionJudged rt prt operand (depth + 1) (nodes + 1))
    (hitems : ∀ items, operand = .sequence items →
      Judged SameCode
        (∀ leaves, RefusedChild rt items (depth + 1) (nodes + 1) leaves → LeavesAgree rt leaves)
        (parseChildren rt items (depth + 1) (nodes + 1))
        (Python.parseChildren prt items (depth + 1) (nodes + 1))) :
    ConditionJudged rt prt (.mapping [(.string operator, operand)]) depth nodes := by
  obtain ⟨-, hcheck⟩ := (rejectUnknownFields_cases prt [(.string operator, operand)]
    Python.conditionFields "condition" "invalid_condition").resolve_right
      (fun h => h.1 (knownKeys_singleton hoperator))
  unfold ConditionJudged
  rw [parseCondition, Python.parseConditionNode]
  simp only [booleanOperator_singleton hoperator, operators_singleton hoperator, hcheck, bind,
    Except.bind]
  by_cases hdepth : maxConditionDepth < depth
  · rw [if_pos hdepth, if_pos (show 32 < depth from hdepth)]
    exact .error (iff_of_true rfl (fun _ h => absurd h.room.1 (not_le.2 hdepth)))
  rw [if_neg hdepth, if_neg (show ¬ 32 < depth from hdepth)]
  by_cases hnodes : maxConditionNodes < nodes + 1
  · rw [if_pos hnodes, if_pos (show 128 < nodes + 1 from hnodes)]
    exact .error (iff_of_true rfl (fun _ h => absurd h.room.2 (not_le.2 hnodes)))
  rw [if_neg hnodes, if_neg (show ¬ 128 < nodes + 1 from hnodes)]
  rw [not_lt] at hdepth hnodes
  by_cases hmany : operator = "all" ∨ operator = "any"
  · rw [if_pos hmany, if_pos hmany]
    cases operand with
    | sequence items =>
        have hchildren := hitems items rfl
        simp only [refusedLeaves_children hmany hdepth hnodes]
        generalize parseChildren rt items (depth + 1) (nodes + 1) = rust at hchildren ⊢
        generalize Python.parseChildren prt items (depth + 1) (nodes + 1) = python
          at hchildren ⊢
        cases rust with
        | ok parsed => exact .ok_left _
        | error e =>
            cases python with
            | ok parsed => exact .ok_right _
            | error e' => exact .error (hchildren e e' rfl rfl)
    | _ =>
        refine .error (iff_of_true rfl (fun leaves h => ?_))
        cases h with
        | leaves _ hnone =>
            rw [booleanOperator_singleton hoperator] at hnone
            cases hnone
        | not => simp at hmany
  · obtain rfl : operator = "not" := by
      simp only [List.mem_cons, List.not_mem_nil, or_false] at hoperator
      tauto
    rw [if_neg hmany, if_neg hmany]
    simp only [refusedLeaves_not hdepth hnodes]
    unfold ConditionJudged at hoperand
    generalize parseCondition rt operand (depth + 1) (nodes + 1) = rust at hoperand ⊢
    generalize Python.parseConditionNode prt operand (depth + 1) (nodes + 1) = python
      at hoperand ⊢
    cases rust with
    | ok parsed => exact .ok_left _
    | error e =>
        cases python with
        | ok parsed => exact .ok_right _
        | error e' => exact .error (hoperand e e' rfl rfl)

/-- A condition mapping whose entries are not one boolean operator. -/
theorem judged_notSingleton (hts : prt.utcTimestamp = rt.utcTimestamp)
    (hplain : Plain .document (.mapping fields)) {depth nodes : ℕ}
    (hnot : ∀ operator ∈ booleanOperator fields, fields.length ≠ 1) :
    ConditionJudged rt prt (.mapping fields) depth nodes := by
  unfold ConditionJudged
  rcases rejectUnknownFields_cases prt fields Python.conditionFields "condition"
    "invalid_condition" with ⟨hknown, hcheck⟩ | ⟨hunknown, -, -⟩
  · -- no unknown field: both parsers go on in the same way
    rw [parseCondition, Python.parseConditionNode]
    simp only [hcheck, bind, Except.bind]
    by_cases hdepth : maxConditionDepth < depth
    · rw [if_pos hdepth, if_pos (show 32 < depth from hdepth)]
      exact .error (iff_of_true rfl (fun _ h => absurd h.room.1 (not_le.2 hdepth)))
    rw [if_neg hdepth, if_neg (show ¬ 32 < depth from hdepth)]
    by_cases hnodes : maxConditionNodes < nodes + 1
    · rw [if_pos hnodes, if_pos (show 128 < nodes + 1 from hnodes)]
      exact .error (iff_of_true rfl (fun _ h => absurd h.room.2 (not_le.2 hnodes)))
    rw [if_neg hnodes, if_neg (show ¬ 128 < nodes + 1 from hnodes)]
    cases hoperator : booleanOperator fields with
    | none =>
        have hleaves := judged_leaves hts hplain
          (knownLeaves hknown hplain.distinctKeys hoperator)
        rw [booleanOperator_eq_none hoperator]
        dsimp only
        generalize fields.foldlM (leafField rt) ⟨none, none, none⟩ = rust at hleaves ⊢
        generalize fields.foldlM (Python.leafField prt) [] = python at hleaves ⊢
        cases rust with
        | ok leaves => exact .ok_left _
        | error e =>
            cases python with
            | ok entries => exact .ok_right _
            | error e' =>
                refine .error ((hleaves e e' rfl rfl).trans (iff_of_true trivial ?_))
                intro leaves hrefused
                rw [refusedLeaves_of_none hoperator hrefused]
                exact .inl hknown
    | some operator =>
        obtain ⟨hname, value, hentry⟩ := booleanOperator_eq_some hoperator
        have hlength := hnot operator hoperator
        have hpresent : operator ∈
            ["all", "any", "not"].filter (fun name => (fields.get name).isSome) :=
          List.mem_filter.2 ⟨hname, by rw [Fields.get_of_mem hplain.distinctKeys hentry]; rfl⟩
        rcases fields with _ | ⟨first, _ | ⟨second, rest⟩⟩
        · simp at hentry
        · exact absurd rfl hlength
        · dsimp only
          generalize ["all", "any", "not"].filter _ = operators at hpresent ⊢
          rcases operators with _ | ⟨name, _ | ⟨name', names⟩⟩
          · simp at hpresent
          · exact .error (iff_of_true rfl
              (fun _ h => absurd h (not_refusedLeaves_of_length hoperator hlength)))
          · exact .error (iff_of_true rfl
              (fun _ h => absurd h (not_refusedLeaves_of_length hoperator hlength)))
  · intro e e' he he'
    rw [SameCode, python_unknownCondition_code hunknown he']
    rw [parseCondition] at he
    by_cases hdepth : maxConditionDepth < depth
    · rw [if_pos hdepth] at he
      obtain rfl := Except.error.inj he
      exact iff_of_true rfl (fun _ h => absurd h.room.1 (not_le.2 hdepth))
    rw [if_neg hdepth] at he
    dsimp only at he
    by_cases hnodes : maxConditionNodes < nodes + 1
    · rw [if_pos hnodes] at he
      obtain rfl := Except.error.inj he
      exact iff_of_true rfl (fun _ h => absurd h.room.2 (not_le.2 hnodes))
    rw [if_neg hnodes] at he
    rw [not_lt] at hdepth hnodes
    cases hoperator : booleanOperator fields with
    | none =>
        rw [hoperator] at he
        cases hrun : fields.foldlM (leafField rt) ⟨none, none, none⟩ with
        | ok leaves => simp [hrun] at he
        | error d =>
            simp only [hrun, error_bind] at he
            obtain rfl := Except.error.inj he
            rw [leaves_code_iff hplain hrun]
            have hrefused : RefusedLeaves rt (.mapping fields) depth nodes fields := by
              refine .leaves (withinBounds_node.2 ⟨hdepth, hnodes⟩) hoperator (fun hvalid => ?_)
              obtain ⟨leaves, hok⟩ := (foldlM_isOk_iff leafField_isOk fields _).2 hvalid
              rw [hok] at hrun
              cases hrun
            constructor
            · intro hat leaves hleaves
              rw [refusedLeaves_of_none hoperator hleaves]
              exact .inr hat
            · intro hagree
              exact (hagree fields hrefused).resolve_left hunknown
    | some operator =>
        have hlength := hnot operator hoperator
        rw [hoperator] at he
        rcases fields with _ | ⟨first, _ | ⟨second, rest⟩⟩
        · simp [booleanOperator] at hoperator
        · exact absurd rfl hlength
        · obtain rfl := Except.error.inj he
          exact iff_of_true rfl
            (fun _ h => absurd h (not_refusedLeaves_of_length hoperator hlength))

/-- **Conditions.** The codes for a condition are equal iff the leaves at which its reading stops
do not hide an unknown field behind a pattern.

By induction on the document, as both parsers read it. -/
theorem judged_parseConditionNode (hts : prt.utcTimestamp = rt.utcTimestamp) (value : Yaml)
    (hplain : Plain .document value) (depth nodes : ℕ) :
    ConditionJudged rt prt value depth nodes := by
  revert depth nodes
  refine Plain.condition_induction
    (P := fun value => ∀ depth nodes, ConditionJudged rt prt value depth nodes)
    (fun value hvalue depth nodes => ?_) (fun fields hfields hnot depth nodes => ?_)
    (fun operator hoperator operand hchild hoperand hitems depth nodes => ?_) value hplain
  · exact judged_notMapping hvalue depth nodes
  · exact judged_notSingleton hts hfields hnot
  · refine judged_operator hoperator (hoperand _ _) (fun items hsequence => ?_)
    refine judged_parseChildren (fun item hitem depth nodes => ?_) (hitems items hsequence) _ _
    exact sameOutcome_parseConditionNode hts item ((hsequence ▸ hchild).items item hitem) _ _

/-! ## The codes for a condition

All codes that a condition can be refused with, in either parser. -/

/-- The codes for a condition. -/
def conditionCodes : List String := ["invalid_condition", "invalid_regex"]

theorem leafCode_mem (entry : Yaml × Yaml) : leafCode entry ∈ conditionCodes := by
  unfold leafCode
  split <;> decide

theorem parseChildren_conditionCode {items : List Yaml}
    (ih : ∀ item ∈ items, ∀ depth nodes,
      ErrorsAre (fun e => e.code ∈ conditionCodes) (parseCondition rt item depth nodes))
    (depth nodes : ℕ) :
    ErrorsAre (fun e => e.code ∈ conditionCodes) (parseChildren rt items depth nodes) := by
  induction items generalizing nodes with
  | nil =>
      rw [parseChildren]
      exact .ok _
  | cons item items ihitems =>
      obtain ⟨hitem, hitems⟩ := List.forall_mem_cons.1 ih
      rw [parseChildren]
      exact (hitem depth nodes).bind (fun parsed =>
        (ihitems hitems parsed.2).bind (fun _ => .ok _))

theorem parseCondition_conditionCode (value : Yaml) (hplain : Plain .document value)
    (depth nodes : ℕ) :
    ErrorsAre (fun e => e.code ∈ conditionCodes) (parseCondition rt value depth nodes) := by
  have hcode : ∀ text,
      ErrorsAre (fun e : PolicyError => e.code ∈ conditionCodes)
        (.error (.invalidCondition text) : Except PolicyError (Condition × ℕ)) := fun text =>
    .error (by simp [conditionCodes, PolicyError.code])
  revert depth nodes
  refine Plain.condition_induction
    (P := fun value => ∀ depth nodes,
      ErrorsAre (fun e => e.code ∈ conditionCodes) (parseCondition rt value depth nodes))
    (fun value hvalue depth nodes => ?_) (fun fields hfields hnot depth nodes => ?_)
    (fun operator hoperator operand hchild hoperand hitems depth nodes => ?_) value hplain
  · rw [parseCondition.eq_def]
    cases value with
    | mapping fields => cases hvalue
    | _ => dsimp only; split_ifs <;> exact hcode _
  · rw [parseCondition]
    dsimp only
    split
    · exact hcode _
    split
    · exact hcode _
    cases hoperator : booleanOperator fields with
    | none =>
        refine ErrorsAre.bind (fun e he => ?_) (fun _ => .ok _)
        obtain ⟨acc, entry, hentry, hround, -⟩ := exists_first_error he
        rw [leafField_code (hfields.entry hentry).2 acc e hround]
        exact leafCode_mem entry
    | some operator =>
        have hlength := hnot operator hoperator
        rcases fields with _ | ⟨first, _ | ⟨second, rest⟩⟩
        · exact hcode _
        · exact absurd rfl hlength
        · exact hcode _
  · rw [parseCondition]
    simp only [booleanOperator_singleton hoperator]
    split
    · exact hcode _
    split
    · exact hcode _
    split
    · cases operand with
      | sequence items =>
          exact (parseChildren_conditionCode (hitems items rfl) _ _).bind (fun _ => .ok _)
      | _ => exact hcode _
    · exact (hoperand _ _).bind (fun _ => .ok _)

theorem python_leafField_conditionCode (parsed : List (String × Python.Operand))
    (entry : Yaml × Yaml) :
    ErrorsAre (fun e => e.code ∈ conditionCodes) (Python.leafField prt parsed entry) := by
  refine ((python_stringOf_code _ _ _).mono (fun _ h => by simp [conditionCodes, h])).bind
    (fun key => ?_)
  have hstring : ErrorsAre (fun e => e.code ∈ conditionCodes)
      (Python.unambiguousString prt entry.2 ("condition." ++ key) "invalid_condition") :=
    (python_unambiguousString_code _ _ _).mono (fun _ h => by simp [conditionCodes, h])
  split
  · refine hstring.bind (fun value => ?_)
    split
    · exact .ok _
    · exact .error (by simp [conditionCodes])
  · split
    · exact hstring.bind (fun _ => .ok _)
    · split
      · exact .ok _
      · exact .error (by simp [conditionCodes])

theorem python_parseChildren_conditionCode {items : List Yaml}
    (ih : ∀ item ∈ items, ∀ depth nodes,
      ErrorsAre (fun e => e.code ∈ conditionCodes) (Python.parseConditionNode prt item depth nodes))
    (depth nodes : ℕ) :
    ErrorsAre (fun e => e.code ∈ conditionCodes)
      (Python.parseChildren prt items depth nodes) := by
  induction items generalizing nodes with
  | nil =>
      rw [Python.parseChildren]
      exact .ok _
  | cons item items ihitems =>
      obtain ⟨hitem, hitems⟩ := List.forall_mem_cons.1 ih
      rw [Python.parseChildren]
      cases hhead : Python.parseConditionNode prt item depth nodes with
      | error e => exact .error (hitem depth nodes e hhead)
      | ok parsed =>
          cases htail : Python.parseChildren prt items depth parsed.2 with
          | error e =>
              simp only [htail]
              exact .error (ihitems hitems parsed.2 e htail)
          | ok children =>
              simp only [htail]
              exact .ok _

theorem python_parseConditionNode_conditionCode (value : Yaml) (hplain : Plain .document value)
    (depth nodes : ℕ) :
    ErrorsAre (fun e => e.code ∈ conditionCodes)
      (Python.parseConditionNode prt value depth nodes) := by
  revert depth nodes
  have hcheck : ∀ fields, ErrorsAre (fun e => e.code ∈ conditionCodes)
      (Python.rejectUnknownFields prt fields Python.conditionFields "condition"
        "invalid_condition") := fun fields =>
    (python_rejectUnknownFields_code _ _ _ _).mono (fun _ h => by simp [conditionCodes, h])
  refine Plain.condition_induction
    (P := fun value => ∀ depth nodes,
      ErrorsAre (fun e => e.code ∈ conditionCodes)
        (Python.parseConditionNode prt value depth nodes))
    (fun value hvalue depth nodes => ?_) (fun fields hfields hnot depth nodes => ?_)
    (fun operator hoperator operand hchild hoperand hitems depth nodes => ?_) value hplain
  · rw [Python.parseConditionNode.eq_def]
    cases value with
    | mapping fields => cases hvalue
    | _ => exact .error (by simp [conditionCodes])
  · rw [Python.parseConditionNode]
    refine (hcheck fields).bind (fun _ => ?_)
    dsimp only
    split
    · exact .error (by simp [conditionCodes])
    split
    · exact .error (by simp [conditionCodes])
    split
    · cases hrun : fields.foldlM (Python.leafField prt) [] with
      | ok parsed => exact .ok _
      | error e => exact .error (ErrorsAre.foldlM python_leafField_conditionCode fields [] e hrun)
    · next operator hoperators =>
        -- the one operator is not the only entry
        have hpresent : booleanOperator fields ≠ none := by
          intro hnone
          rw [booleanOperator_eq_none hnone] at hoperators
          cases hoperators
        obtain ⟨name, hname⟩ := Option.ne_none_iff_exists'.1 hpresent
        have hlength := hnot name hname
        rcases fields with _ | ⟨first, _ | ⟨second, rest⟩⟩
        · exact .error (by simp [conditionCodes])
        · exact absurd rfl hlength
        · exact .error (by simp [conditionCodes])
    · exact .error (by simp [conditionCodes])
  · rw [Python.parseConditionNode]
    refine (hcheck _).bind (fun _ => ?_)
    rw [operators_singleton hoperator]
    dsimp only
    split
    · exact .error (by simp [conditionCodes])
    split
    · exact .error (by simp [conditionCodes])
    split
    · cases operand with
      | sequence items =>
          cases hrun : Python.parseChildren prt items (depth + 1) (nodes + 1) with
          | ok parsed =>
              simp only [hrun]
              exact .ok _
          | error e =>
              simp only [hrun]
              exact .error (python_parseChildren_conditionCode (hitems items rfl) _ _ e hrun)
      | _ => exact .error (by simp [conditionCodes])
    · cases hrun : Python.parseConditionNode prt operand (depth + 1) (nodes + 1) with
      | ok parsed => exact .ok _
      | error e => exact .error (hoperand _ _ e hrun)

end Conditions

end HpGuardian

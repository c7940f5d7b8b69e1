import HpGuardian.Policy.Fields

/-!
# Condition documents and condition trees

`Denotes` relates a condition document whose nodes are all locally valid to the condition tree it
stands for: the same shape, the same operators and the values of the leaves.  It says nothing about
size.  The parser reads these documents and bounds them on the way: a counter of nodes is passed
along and checked at each node, and so is the depth.

`parseConditions_bounds_exact` says that the bounds are exactly those documented, at most 32 levels
and at most 128 nodes, of the tree as a whole.  Both directions are inductions over the document as
the parser reads it.  For one, a locally valid document is read if and only if its tree fits below
the depth at which it is met and behind the nodes that were counted before it
(`Denotes.readsWithin`), and then the count that is passed on is the number of nodes read so far; a
node's children are read one after the other with what the earlier ones have left of the bound.
For the other, whatever the parser reads is locally valid throughout.

So a condition is refused for its size, or because one of its nodes is not valid by itself, and for
nothing else.
-/

namespace HpGuardian

open Framework

/-! ## The size of a condition tree

Nodes and levels.  A tree without operators has one of each. -/

mutual

/-- The number of nodes of a condition tree. -/
def Condition.nodes : Condition → ℕ
  | .leaves _ _ _ => 1
  | .all children => 1 + nodesOf children
  | .any children => 1 + nodesOf children
  | .not child => 1 + child.nodes

/-- The number of nodes below a composition. -/
def nodesOf : List Condition → ℕ
  | [] => 0
  | child :: children => child.nodes + nodesOf children

end

mutual

/-- The number of levels of a condition tree; the root is the first. -/
def Condition.levels : Condition → ℕ
  | .leaves _ _ _ => 1
  | .all children => 1 + levelsOf children
  | .any children => 1 + levelsOf children
  | .not child => 1 + child.levels

/-- The number of levels below a composition. -/
def levelsOf : List Condition → ℕ
  | [] => 0
  | child :: children => max child.levels (levelsOf children)

end

/-! ## Locally valid documents

What a node may look like, with what is below it left to its own node. -/

section

variable (rt : YamlRuntime)

/-- A time window with its two ends, in either order, as timestamps that are in order. No other
field is admitted beside them. -/
def ValidWindow (value : Yaml) (window : TimeWindow) : Prop :=
  ∃ start stop, rt.utcTimestamp start = some window.start ∧
    rt.utcTimestamp stop = some window.stop ∧ window.start < window.stop ∧
    (value = .mapping [(.string "start", .string start), (.string "end", .string stop)] ∨
      value = .mapping [(.string "end", .string stop), (.string "start", .string start)])

/-- A leaf field with an admissible value. -/
inductive ValidLeaf : Yaml × Yaml → Prop
  | argsMatch {pattern : String} {parsed : ArgsPattern}
      (hunambiguous : isAmbiguousYamlScalar pattern = false)
      (hparse : parseArgsPattern pattern = .ok parsed) :
      ValidLeaf (.string "args_match", .string pattern)
  | pathPattern {pattern : String} (hunambiguous : isAmbiguousYamlScalar pattern = false) :
      ValidLeaf (.string "path_pattern", .string pattern)
  | timeWindow {value : Yaml} {window : TimeWindow} (hwindow : ValidWindow rt value window) :
      ValidLeaf (.string "time_window", value)

/-- A leaf mapping with admissible fields only, and the values it holds. -/
structure LeafValues (fields : Fields) (argsMatch pathPattern : Option String)
    (timeWindow : Option TimeWindow) : Prop where
  valid : ∀ entry ∈ fields, ValidLeaf rt entry
  argsMatch : argsMatch = (fields.last "args_match").bind Yaml.asStr
  pathPattern : pathPattern = (fields.last "path_pattern").bind Yaml.asStr
  timeWindow : Option.Rel (ValidWindow rt) (fields.last "time_window") timeWindow

/-- A condition document whose nodes are all locally valid, and the condition of the same shape
with the same operators and leaf values. Nothing is said about its size. -/
inductive Denotes : Yaml → Condition → Prop
  | leaves {fields : Fields} {argsMatch pathPattern : Option String}
      {timeWindow : Option TimeWindow} (h : LeafValues rt fields argsMatch pathPattern timeWindow) :
      Denotes (.mapping fields) (.leaves argsMatch pathPattern timeWindow)
  | all {items : List Yaml} {children : List Condition} (hlength : items.length = children.length)
      (h : ∀ item child, (item, child) ∈ items.zip children → Denotes item child) :
      Denotes (.mapping [(.string "all", .sequence items)]) (.all children)
  | any {items : List Yaml} {children : List Condition} (hlength : items.length = children.length)
      (h : ∀ item child, (item, child) ∈ items.zip children → Denotes item child) :
      Denotes (.mapping [(.string "any", .sequence items)]) (.any children)
  | not {value : Yaml} {child : Condition} (h : Denotes value child) :
      Denotes (.mapping [(.string "not", value)]) (.not child)

/-- A condition document whose nodes are all locally valid: of each only its own fields and the
shape of its children are looked at. How deep and how large the document is does not matter here. -/
inductive LocallyValid : Yaml → Prop
  | leaves {fields : Fields} (h : ∀ entry ∈ fields, ValidLeaf rt entry) :
      LocallyValid (.mapping fields)
  | all {items : List Yaml} (h : ∀ item ∈ items, LocallyValid item) :
      LocallyValid (.mapping [(.string "all", .sequence items)])
  | any {items : List Yaml} (h : ∀ item ∈ items, LocallyValid item) :
      LocallyValid (.mapping [(.string "any", .sequence items)])
  | not {value : Yaml} (h : LocallyValid value) :
      LocallyValid (.mapping [(.string "not", value)])

end

section

variable {rt : YamlRuntime}

/-! ## Time windows

The loop over the two fields of a window accepts them in either order. -/

/-- What one field of a `time_window` mapping does. -/
theorem timeWindowField_cases {acc acc' : Option Instant × Option Instant}
    {entry : Yaml × Yaml} (h : timeWindowField rt acc entry = .ok acc') :
    ∃ text instant, entry.2 = .string text ∧ rt.utcTimestamp text = some instant ∧
      ((entry.1 = .string "start" ∧ acc' = (some instant, acc.2)) ∨
        (entry.1 = .string "end" ∧ acc' = (acc.1, some instant))) := by
  obtain ⟨key, value⟩ := entry
  cases key with
  | string name =>
      cases value with
      | string text =>
          simp only [timeWindowField, fieldName, stringOr, Yaml.asStr, orElseError, bind,
            Except.bind, Except.mapError, parseUtcTimestamp] at h
          cases hinstant : rt.utcTimestamp text with
          | none => simp [hinstant] at h
          | some instant =>
              simp only [hinstant] at h
              refine ⟨text, instant, rfl, hinstant, ?_⟩
              split at h
              · next hstart => exact .inl ⟨by rw [hstart], (Except.ok.inj h).symm⟩
              · split at h
                · next hend => exact .inr ⟨by rw [hend], (Except.ok.inj h).symm⟩
                · cases h
      | _ => simp [timeWindowField, fieldName, stringOr, Yaml.asStr, orElseError, bind,
          Except.bind, Except.mapError] at h
  | _ => simp [timeWindowField, fieldName, Yaml.asStr, orElseError, bind, Except.bind,
      Except.mapError] at h

/-- The two ends of a time window, read from its two fields. -/
theorem parseTimeWindow_eq {fields : Fields} {window : TimeWindow} (hlength : fields.length = 2)
    (hrun : fields.foldlM (timeWindowField rt) (none, none) =
      .ok (some window.start, some window.stop)) (hlt : window.start < window.stop) :
    parseTimeWindow rt (.mapping fields) = .ok window := by
  simp only [parseTimeWindow, mappingOf, Yaml.asMapping, orElseError, Except.mapError, ok_bind]
  rw [if_neg (not_not.2 hlength), hrun]
  simp [hlt]

theorem timeWindowField_start {text : String} {instant : Instant}
    (h : rt.utcTimestamp text = some instant) (acc : Option Instant × Option Instant) :
    timeWindowField rt acc (.string "start", .string text) = .ok (some instant, acc.2) := by
  simp [timeWindowField, fieldName, stringOr, Yaml.asStr, orElseError, Except.mapError,
    parseUtcTimestamp, h]

theorem timeWindowField_end {text : String} {instant : Instant}
    (h : rt.utcTimestamp text = some instant) (acc : Option Instant × Option Instant) :
    timeWindowField rt acc (.string "end", .string text) = .ok (acc.1, some instant) := by
  simp [timeWindowField, fieldName, stringOr, Yaml.asStr, orElseError, Except.mapError,
    parseUtcTimestamp, h]

/-- What the parser accepts as a time window. -/
theorem parseTimeWindow_ok_iff {value : Yaml} {window : TimeWindow} :
    parseTimeWindow rt value = .ok window ↔ ValidWindow rt value window := by
  constructor
  · unfold parseTimeWindow
    simp only [bind_ok_iff, orElseError_ok, mappingOf_ok]
    rintro ⟨fields, rfl, hrun⟩
    split at hrun
    · cases hrun
    rename_i hlength
    obtain ⟨⟨start, stop⟩, hfields, hrun⟩ := bind_ok_iff.1 hrun
    obtain ⟨first, second, rfl⟩ := List.length_eq_two.1 (not_not.1 hlength)
    simp only [List.foldlM_cons, List.foldlM_nil, bind_ok_iff] at hfields
    obtain ⟨acc, hround, acc', hround', hacc⟩ := hfields
    obtain rfl : acc' = (start, stop) := Except.ok.inj hacc
    obtain ⟨key, value⟩ := first
    obtain ⟨key', value'⟩ := second
    obtain ⟨text, instant, hvalue, hinstant, hfirst⟩ := timeWindowField_cases hround
    obtain ⟨text', instant', hvalue', hinstant', hsecond⟩ := timeWindowField_cases hround'
    clear hround hround' hacc
    dsimp only at hvalue hvalue' hfirst hsecond
    subst hvalue hvalue'
    -- the two fields are one start and one end
    rcases hfirst with ⟨rfl, rfl⟩ | ⟨rfl, rfl⟩ <;>
      rcases hsecond with ⟨rfl, hends⟩ | ⟨rfl, hends⟩ <;>
      obtain ⟨rfl, rfl⟩ := Prod.mk.inj hends
    · cases hrun
    · dsimp only at hrun
      split at hrun
      · rename_i hlt
        obtain rfl := Except.ok.inj hrun
        exact ⟨text, text', hinstant, hinstant', hlt, .inl rfl⟩
      · cases hrun
    · dsimp only at hrun
      split at hrun
      · rename_i hlt
        obtain rfl := Except.ok.inj hrun
        exact ⟨text', text, hinstant', hinstant, hlt, .inr rfl⟩
      · cases hrun
    · cases hrun
  · rintro ⟨start, stop, hstart, hstop, hlt, rfl | rfl⟩
    · refine parseTimeWindow_eq rfl ?_ hlt
      rw [List.foldlM_cons, timeWindowField_start hstart, ok_bind, List.foldlM_cons,
        timeWindowField_end hstop]
      rfl
    · refine parseTimeWindow_eq rfl ?_ hlt
      rw [List.foldlM_cons, timeWindowField_end hstop, ok_bind, List.foldlM_cons,
        timeWindowField_start hstart]
      rfl

/-! ## Leaves

The loop over the fields of a leaf mapping, field by field. -/

/-- What one leaf field does. -/
theorem leafField_cases {acc acc' : LeafFields} {entry : Yaml × Yaml}
    (h : leafField rt acc entry = .ok acc') :
    (∃ pattern parsed, entry = (.string "args_match", .string pattern) ∧
        isAmbiguousYamlScalar pattern = false ∧ parseArgsPattern pattern = .ok parsed ∧
        acc' = { acc with argsMatch := some pattern }) ∨
      (∃ pattern, entry = (.string "path_pattern", .string pattern) ∧
        isAmbiguousYamlScalar pattern = false ∧
        acc' = { acc with pathPattern := some pattern }) ∨
      ∃ value window, entry = (.string "time_window", value) ∧ ValidWindow rt value window ∧
        acc' = { acc with timeWindow := some window } := by
  obtain ⟨key, value⟩ := entry
  unfold leafField at h
  obtain ⟨name, hname, hfield⟩ := bind_ok_iff.1 h
  obtain rfl : key = .string name := fieldName_ok.1 (orElseError_ok.1 hname)
  clear h hname
  split_ifs at hfield with hargs hpath hwindow
  · subst hargs
    obtain ⟨pattern, hpattern, hstored⟩ := bind_ok_iff.1 hfield
    obtain ⟨rfl, hunambiguous⟩ := unambiguousStringOr_ok.1 hpattern
    cases hparse : parseArgsPattern pattern with
    | error reason => simp [validateArgsMatch, hparse, Except.map] at hstored
    | ok parsed =>
        simp only [validateArgsMatch, hparse, Except.map] at hstored
        exact .inl ⟨pattern, parsed, rfl, hunambiguous, hparse, (Except.ok.inj hstored).symm⟩
  · subst hpath
    obtain ⟨pattern, hpattern, hstored⟩ := bind_ok_iff.1 hfield
    obtain ⟨rfl, hunambiguous⟩ := unambiguousStringOr_ok.1 hpattern
    exact .inr (.inl ⟨pattern, rfl, hunambiguous, (Except.ok.inj hstored).symm⟩)
  · subst hwindow
    obtain ⟨window, hparse, hstored⟩ := bind_ok_iff.1 hfield
    exact .inr (.inr ⟨value, window, rfl, parseTimeWindow_ok_iff.1 hparse,
      (Except.ok.inj hstored).symm⟩)

/-- A leaf field is accepted, whatever was read before, iff it is valid. -/
theorem leafField_isOk (acc : LeafFields) (entry : Yaml × Yaml) :
    (∃ acc', leafField rt acc entry = .ok acc') ↔ ValidLeaf rt entry := by
  constructor
  · rintro ⟨acc', h⟩
    rcases leafField_cases h with ⟨pattern, parsed, rfl, hunambiguous, hparse, -⟩ |
      ⟨pattern, rfl, hunambiguous, -⟩ | ⟨value, window, rfl, hwindow, -⟩
    · exact .argsMatch hunambiguous hparse
    · exact .pathPattern hunambiguous
    · exact .timeWindow hwindow
  · intro h
    cases h with
    | @argsMatch pattern parsed hunambiguous hparse =>
        refine ⟨{ acc with argsMatch := some pattern }, ?_⟩
        simp [leafField, fieldName, unambiguousStringOr, stringOr, Yaml.asStr, orElseError,
          Except.mapError, hunambiguous, validateArgsMatch, hparse, Except.map]
    | @pathPattern pattern hunambiguous =>
        refine ⟨{ acc with pathPattern := some pattern }, ?_⟩
        simp [leafField, fieldName, unambiguousStringOr, stringOr, Yaml.asStr, orElseError,
          Except.mapError, hunambiguous]
    | @timeWindow value window hwindow =>
        refine ⟨{ acc with timeWindow := some window }, ?_⟩
        simp [leafField, fieldName, Yaml.asStr, orElseError, Except.mapError,
          parseTimeWindow_ok_iff.2 hwindow]

/-- A document has at most one value as a time window. -/
theorem ValidWindow.unique {value : Yaml} {window window' : TimeWindow}
    (h : ValidWindow rt value window) (h' : ValidWindow rt value window') : window = window' := by
  have hparse := parseTimeWindow_ok_iff.2 h
  rw [parseTimeWindow_ok_iff.2 h'] at hparse
  exact (Except.ok.inj hparse).symm

/-- A leaf mapping has at most one value for each leaf. -/
theorem LeafValues.unique {fields : Fields} {leaves leaves' : LeafFields}
    (h : LeafValues rt fields leaves.argsMatch leaves.pathPattern leaves.timeWindow)
    (h' : LeafValues rt fields leaves'.argsMatch leaves'.pathPattern leaves'.timeWindow) :
    leaves = leaves' := by
  obtain ⟨argsMatch, pathPattern, timeWindow⟩ := leaves
  obtain ⟨argsMatch', pathPattern', timeWindow'⟩ := leaves'
  have hwindow : timeWindow = timeWindow' := by
    have hrel := h.timeWindow
    have hrel' := h'.timeWindow
    cases hlast : fields.last "time_window" with
    | none =>
        rw [hlast] at hrel hrel'
        cases hrel
        cases hrel'
        rfl
    | some value =>
        rw [hlast] at hrel hrel'
        cases hrel with
        | some hvalid =>
            cases hrel' with
            | some hvalid' => rw [hvalid.unique hvalid']
  rw [LeafFields.mk.injEq]
  exact ⟨h.argsMatch.trans h'.argsMatch.symm, h.pathPattern.trans h'.pathPattern.symm, hwindow⟩

theorem ValidLeaf.key {entry : Yaml × Yaml} (h : ValidLeaf rt entry) :
    ∃ name ∈ ["args_match", "path_pattern", "time_window"], entry.1 = .string name := by
  cases h with
  | argsMatch => exact ⟨"args_match", by simp, rfl⟩
  | pathPattern => exact ⟨"path_pattern", by simp, rfl⟩
  | timeWindow => exact ⟨"time_window", by simp, rfl⟩

theorem ValidLeaf.window {value : Yaml} (h : ValidLeaf rt (.string "time_window", value)) :
    ∃ window, ValidWindow rt value window := by
  generalize hentry : ((Yaml.string "time_window", value) : Yaml × Yaml) = entry at h
  cases h with
  | argsMatch => simp at hentry
  | pathPattern => simp at hentry
  | @timeWindow value' window hwindow =>
      obtain ⟨-, rfl⟩ := Prod.mk.inj hentry
      exact ⟨window, hwindow⟩

theorem leafFields_values {fields : Fields} {leaves : LeafFields}
    (hrun : fields.foldlM (leafField rt) ⟨none, none, none⟩ = .ok leaves) :
    LeafValues rt fields leaves.argsMatch leaves.pathPattern leaves.timeWindow := by
  have hvalid : ∀ entry ∈ fields, ValidLeaf rt entry :=
    (foldlM_isOk_iff leafField_isOk fields ⟨none, none, none⟩).1 ⟨leaves, hrun⟩
  have hargs := Fields.foldlM_last LeafFields.argsMatch "args_match" Yaml.asStr
    (fun acc acc' entry hkey h => by
      rcases leafField_cases h with ⟨_, _, rfl, _, _, rfl⟩ | ⟨_, rfl, _, rfl⟩ | ⟨_, _, rfl, _, rfl⟩
      · exact absurd rfl hkey
      · rfl
      · rfl)
    (fun acc acc' value h => by
      rcases leafField_cases h with ⟨_, _, heq, _, _, rfl⟩ | ⟨_, heq, _, _⟩ | ⟨_, _, heq, _, _⟩
      · rw [(Prod.mk.inj heq).2]
        rfl
      · simp at heq
      · simp at heq) hrun
  have hpath := Fields.foldlM_last LeafFields.pathPattern "path_pattern" Yaml.asStr
    (fun acc acc' entry hkey h => by
      rcases leafField_cases h with ⟨_, _, rfl, _, _, rfl⟩ | ⟨_, rfl, _, rfl⟩ | ⟨_, _, rfl, _, rfl⟩
      · rfl
      · exact absurd rfl hkey
      · rfl)
    (fun acc acc' value h => by
      rcases leafField_cases h with ⟨_, _, heq, _, _, _⟩ | ⟨_, heq, _, rfl⟩ | ⟨_, _, heq, _, _⟩
      · simp at heq
      · rw [(Prod.mk.inj heq).2]
        rfl
      · simp at heq) hrun
  have hwindow := Fields.foldlM_last LeafFields.timeWindow "time_window"
    (fun value => (parseTimeWindow rt value).toOption)
    (fun acc acc' entry hkey h => by
      rcases leafField_cases h with ⟨_, _, rfl, _, _, rfl⟩ | ⟨_, rfl, _, rfl⟩ | ⟨_, _, rfl, _, rfl⟩
      · rfl
      · rfl
      · exact absurd rfl hkey)
    (fun acc acc' value h => by
      rcases leafField_cases h with ⟨_, _, heq, _, _, _⟩ | ⟨_, heq, _, _⟩ | ⟨_, _, heq, hvalid, rfl⟩
      · simp at heq
      · simp at heq
      · rw [(Prod.mk.inj heq).2, parseTimeWindow_ok_iff.2 hvalid]
        rfl) hrun
  refine ⟨hvalid, hargs.trans ?_, hpath.trans ?_, ?_⟩
  · cases fields.last "args_match" <;> rfl
  · cases fields.last "path_pattern" <;> rfl
  · rw [hwindow]
    cases hlast : fields.last "time_window" with
    | none => exact .none
    | some value =>
        obtain ⟨window, hvalue⟩ := (hvalid _ (Fields.mem_of_last hlast)).window
        rw [Option.map_some, Option.getD_some, parseTimeWindow_ok_iff.2 hvalue]
        exact .some hvalue

/-- A leaf mapping is accepted iff all its fields are valid, and the last value of each field is
kept. -/
theorem leafFields_ok_iff {fields : Fields} {leaves : LeafFields} :
    fields.foldlM (leafField rt) ⟨none, none, none⟩ = .ok leaves ↔
      LeafValues rt fields leaves.argsMatch leaves.pathPattern leaves.timeWindow := by
  refine ⟨leafFields_values, fun h => ?_⟩
  obtain ⟨leaves', hrun⟩ := (foldlM_isOk_iff leafField_isOk fields ⟨none, none, none⟩).2 h.valid
  rw [hrun, h.unique (leafFields_values hrun)]

/-- A leaf mapping has no boolean operator. -/
theorem LeafValues.booleanOperator {fields : Fields} {argsMatch pathPattern : Option String}
    {timeWindow : Option TimeWindow} (h : LeafValues rt fields argsMatch pathPattern timeWindow) :
    booleanOperator fields = none := by
  rw [HpGuardian.booleanOperator, List.findSome?_eq_none_iff]
  intro entry hentry
  cases h.valid entry hentry <;> simp [Yaml.asStr]

/-! ## Trees

Induction over a condition as the parser reads it. -/

theorem booleanOperator_eq_some {fields : Fields} {operator : String}
    (h : booleanOperator fields = some operator) :
    operator ∈ ["all", "any", "not"] ∧ ∃ value, (Yaml.string operator, value) ∈ fields := by
  rw [booleanOperator] at h
  obtain ⟨⟨key, value⟩, hentry, hkey⟩ := List.exists_of_findSome?_eq_some h
  simp only [Option.filter_eq_some_iff, Yaml.asStr_eq_some, Bool.or_eq_true, beq_iff_eq] at hkey
  obtain ⟨rfl, hoperator⟩ := hkey
  exact ⟨by simpa [or_assoc] using hoperator, value, hentry⟩

theorem booleanOperator_singleton {operator : String} {operand : Yaml}
    (hoperator : operator ∈ ["all", "any", "not"]) :
    booleanOperator [(.string operator, operand)] = some operator := by
  simp only [List.mem_cons, List.not_mem_nil, or_false] at hoperator
  rcases hoperator with rfl | rfl | rfl <;> rfl

/-- Induction on a condition as the parser reads it: a mapping with one boolean operator follows
from its operand, or from the items of its operand; everything else stands for itself. -/
theorem condition_induction {P : Yaml → Prop}
    (notMapping : ∀ value : Yaml, value.asMapping = none → P value)
    (notSingleton : ∀ fields : Fields,
      (∀ operator ∈ booleanOperator fields, fields.length ≠ 1) → P (.mapping fields))
    (operator : ∀ operator ∈ ["all", "any", "not"], ∀ operand,
      P operand → (∀ items, operand = .sequence items → ∀ item ∈ items, P item) →
        P (.mapping [(.string operator, operand)]))
    (value : Yaml) : P value := by
  cases value with
  | mapping fields =>
      by_cases hsingle : ∀ operator ∈ booleanOperator fields, fields.length ≠ 1
      · exact notSingleton fields hsingle
      · push Not at hsingle
        obtain ⟨name, hoperator, hlength⟩ := hsingle
        obtain ⟨entry, hfields⟩ := List.length_eq_one_iff.1 hlength
        obtain ⟨hname, operand, hentry⟩ := booleanOperator_eq_some hoperator
        have hentry : (.string name, operand) = entry := by simpa [hfields] using hentry
        have hsize : sizeOf operand < sizeOf fields := by
          rw [hfields, ← hentry]
          simp only [List.cons.sizeOf_spec, Prod.mk.sizeOf_spec]
          omega
        have hoperand := condition_induction notMapping notSingleton operator operand
        have hitems : ∀ items, operand = .sequence items → ∀ item ∈ items, P item := by
          intro items hsequence item hitem
          have hitemSize := List.sizeOf_lt_of_mem hitem
          exact condition_induction notMapping notSingleton operator item
        rw [hfields, ← hentry]
        exact operator name hname operand hoperand hitems
  | _ => exact notMapping _ rfl
termination_by sizeOf value
decreasing_by
  · simp only [Yaml.mapping.sizeOf_spec]
    omega
  · rw [hsequence, Yaml.sequence.sizeOf_spec] at hsize
    simp only [Yaml.mapping.sizeOf_spec]
    omega

/-- A locally valid document stands for a condition. -/
theorem LocallyValid.exists_denotes {document : Yaml} (h : LocallyValid rt document) :
    ∃ condition, Denotes rt document condition := by
  have hchildren : ∀ items : List Yaml, (∀ item ∈ items, ∃ child, Denotes rt item child) →
      ∃ children : List Condition, items.length = children.length ∧
        ∀ item child, (item, child) ∈ items.zip children → Denotes rt item child := by
    intro items hitems
    have : Nonempty Condition := ⟨.default⟩
    choose! child hchild using hitems
    have hall : List.Forall₂ (Denotes rt) items (items.map child) :=
      List.forall₂_map_right_iff.2 (List.forall₂_same.2 hchild)
    exact ⟨items.map child, hall.length_eq, fun item child hmem =>
      (List.forall₂_iff_zip.1 hall).2 hmem⟩
  induction h with
  | @leaves fields hvalid =>
      obtain ⟨leaves, hrun⟩ :=
        (foldlM_isOk_iff leafField_isOk fields ⟨none, none, none⟩).2 hvalid
      exact ⟨_, .leaves (leafFields_values hrun)⟩
  | all h ih =>
      obtain ⟨children, hlength, hdenotes⟩ := hchildren _ ih
      exact ⟨_, .all hlength hdenotes⟩
  | any h ih =>
      obtain ⟨children, hlength, hdenotes⟩ := hchildren _ ih
      exact ⟨_, .any hlength hdenotes⟩
  | not h ih =>
      obtain ⟨child, hdenotes⟩ := ih
      exact ⟨_, .not hdenotes⟩

/-! ## The bounds

A reader that starts at some depth, after some number of nodes, keeps within the bounds iff its
tree still fits.  The counter it passes on is then the number of nodes read so far. -/

/-- A tree of this many levels and nodes fits below a depth, after some number of nodes. The parser
counts the depth from 1 and the nodes over the whole condition. -/
def WithinBounds (depth nodes levels size : ℕ) : Prop :=
  depth + levels ≤ maxConditionDepth + 1 ∧ nodes + size ≤ maxConditionNodes

/-- A result is the given value with the nodes counted if the tree fits, and a refusal if not. It
is stated for any depth and count, so that it can be proved along the recursion of the parser. -/
structure ReadsWithin {α : Type} (depth nodes levels size : ℕ) (value : α)
    (result : Except PolicyError (α × ℕ)) : Prop where
  fits : WithinBounds depth nodes levels size → result = .ok (value, nodes + size)
  exceeds : ¬ WithinBounds depth nodes levels size →
    ∃ text, result = .error (.invalidCondition text)

theorem parseCondition_beyond {depth nodes : ℕ} (value : Yaml)
    (h : ¬ (depth ≤ maxConditionDepth ∧ nodes + 1 ≤ maxConditionNodes)) :
    ∃ text, parseCondition rt value depth nodes = .error (.invalidCondition text) := by
  rw [parseCondition.eq_def]
  by_cases hdepth : maxConditionDepth < depth
  · exact ⟨_, if_pos hdepth⟩
  · rw [if_neg hdepth]
    exact ⟨_, if_pos (by omega)⟩

/-- One node with a sequence of children, within the bounds. -/
theorem parseCondition_sequence {operator : String} {items : List Yaml} {depth nodes : ℕ}
    (hoperator : operator = "all" ∨ operator = "any") (hdepth : depth ≤ maxConditionDepth)
    (hnodes : nodes + 1 ≤ maxConditionNodes) :
    parseCondition rt (.mapping [(.string operator, .sequence items)]) depth nodes =
      parseChildren rt items (depth + 1) (nodes + 1) >>= fun read =>
        .ok (if operator = "all" then .all read.1 else .any read.1, read.2) := by
  have hmem : operator ∈ ["all", "any", "not"] := by
    rcases hoperator with rfl | rfl <;> simp
  simp only [parseCondition, if_neg (not_lt.2 hdepth), if_neg (not_lt.2 hnodes),
    booleanOperator_singleton hmem, if_pos hoperator]

/-- One negation, within the bounds. -/
theorem parseCondition_not {value : Yaml} {depth nodes : ℕ} (hdepth : depth ≤ maxConditionDepth)
    (hnodes : nodes + 1 ≤ maxConditionNodes) :
    parseCondition rt (.mapping [(.string "not", value)]) depth nodes =
      parseCondition rt value (depth + 1) (nodes + 1) >>= fun read =>
        .ok (.not read.1, read.2) := by
  have hmem : "not" ∈ ["all", "any", "not"] := by simp
  rw [parseCondition]
  simp only [if_neg (not_lt.2 hdepth), if_neg (not_lt.2 hnodes), booleanOperator_singleton hmem]
  rw [if_neg (by simp)]

/-- One leaf mapping, within the bounds. -/
theorem parseCondition_leaves {fields : Fields} {depth nodes : ℕ}
    (hoperator : booleanOperator fields = none) (hdepth : depth ≤ maxConditionDepth)
    (hnodes : nodes + 1 ≤ maxConditionNodes) :
    parseCondition rt (.mapping fields) depth nodes =
      fields.foldlM (leafField rt) ⟨none, none, none⟩ >>= fun leaves =>
        .ok (.leaves leaves.argsMatch leaves.pathPattern leaves.timeWindow, nodes + 1) := by
  simp only [parseCondition, if_neg (not_lt.2 hdepth), if_neg (not_lt.2 hnodes), hoperator]

/-- A node with something below it fits iff there is room for the node and what is below fits. -/
theorem ReadsWithin.node {α : Type} {depth nodes levels size : ℕ} {document : Yaml} {below : α}
    (build : α → Condition) (read : Except PolicyError (α × ℕ))
    (h : depth ≤ maxConditionDepth → nodes + 1 ≤ maxConditionNodes →
      ReadsWithin (depth + 1) (nodes + 1) levels size below read ∧
        parseCondition rt document depth nodes = read >>= fun r => .ok (build r.1, r.2)) :
    ReadsWithin depth nodes (1 + levels) (1 + size) (build below)
      (parseCondition rt document depth nodes) := by
  by_cases hroom : depth ≤ maxConditionDepth ∧ nodes + 1 ≤ maxConditionNodes
  · obtain ⟨hbelow, hrun⟩ := h hroom.1 hroom.2
    have hfits : WithinBounds depth nodes (1 + levels) (1 + size) ↔
        WithinBounds (depth + 1) (nodes + 1) levels size := by
      simp only [WithinBounds, Nat.add_assoc]
    rw [hrun]
    refine ⟨fun hfit => ?_, fun hfit => ?_⟩
    · rw [hbelow.fits (hfits.1 hfit), ok_bind, Nat.add_assoc]
    · obtain ⟨text, hread⟩ := hbelow.exceeds (mt hfits.2 hfit)
      exact ⟨text, by rw [hread, error_bind]⟩
  · refine ⟨fun hfit => absurd ?_ hroom, fun _ => parseCondition_beyond document hroom⟩
    obtain ⟨hlevels, hsize⟩ := hfit
    constructor <;> omega

/-- The children of a node are read within the bounds if each of them is. -/
theorem parseChildren_within {items : List Yaml} {children : List Condition}
    (h : List.Forall₂ (fun item child => ∀ depth nodes,
      ReadsWithin depth nodes child.levels child.nodes child (parseCondition rt item depth nodes))
      items children) {depth nodes : ℕ} (hdepth : depth ≤ maxConditionDepth + 1)
    (hnodes : nodes ≤ maxConditionNodes) :
    ReadsWithin depth nodes (levelsOf children) (nodesOf children) children
      (parseChildren rt items depth nodes) := by
  induction h generalizing nodes with
  | nil =>
      rw [parseChildren]
      exact ⟨fun _ => rfl, fun hfit => absurd ⟨hdepth, hnodes⟩ hfit⟩
  | @cons item child items children hitem hitems ih =>
      rw [parseChildren]
      simp only [levelsOf, nodesOf]
      have hchild := hitem depth nodes
      by_cases hfit : WithinBounds depth nodes child.levels child.nodes
      · have hrest := ih hfit.2
        have hboth : WithinBounds depth nodes (max child.levels (levelsOf children))
            (child.nodes + nodesOf children) ↔
            WithinBounds depth (nodes + child.nodes) (levelsOf children) (nodesOf children) := by
          obtain ⟨hlevels, -⟩ := hfit
          simp only [WithinBounds, Nat.add_assoc]
          omega
        rw [hchild.fits hfit, ok_bind]
        refine ⟨fun hall => ?_, fun hall => ?_⟩
        · simp only [hrest.fits (hboth.1 hall), ok_bind, Nat.add_assoc]
        · obtain ⟨text, hread⟩ := hrest.exceeds (mt hboth.2 hall)
          exact ⟨text, by simp only [hread, error_bind]⟩
      · obtain ⟨text, hread⟩ := hchild.exceeds hfit
        refine ⟨fun hall => absurd ?_ hfit, fun _ => ⟨text, by rw [hread, error_bind]⟩⟩
        obtain ⟨hlevels, hsize⟩ := hall
        constructor <;> omega

/-- The bounds are the only reason to refuse a condition whose nodes are all locally valid. -/
theorem Denotes.readsWithin {document : Yaml} {condition : Condition}
    (h : Denotes rt document condition) (depth nodes : ℕ) :
    ReadsWithin depth nodes condition.levels condition.nodes condition
      (parseCondition rt document depth nodes) := by
  induction h generalizing depth nodes with
  | @leaves fields argsMatch pathPattern timeWindow h =>
      have hleaves : fields.foldlM (leafField rt) ⟨none, none, none⟩ =
          .ok ⟨argsMatch, pathPattern, timeWindow⟩ := leafFields_ok_iff.2 h
      -- nothing is below a leaf mapping
      have hnode : ReadsWithin depth nodes (1 + 0) (1 + 0)
          (.leaves argsMatch pathPattern timeWindow)
          (parseCondition rt (.mapping fields) depth nodes) := by
        refine .node (fun _ : Unit => .leaves argsMatch pathPattern timeWindow)
          (.ok ((), nodes + 1)) fun hdepth hnodes => ⟨⟨fun _ => rfl, fun hfit => ?_⟩, ?_⟩
        · exact absurd ⟨Nat.succ_le_succ hdepth, hnodes⟩ hfit
        · rw [parseCondition_leaves h.booleanOperator hdepth hnodes, hleaves]
          rfl
      exact hnode
  | @all items children hlength h ih =>
      have hitems := List.forall₂_iff_zip.2 ⟨hlength, fun hmem => ih _ _ hmem⟩
      refine .node .all (parseChildren rt items (depth + 1) (nodes + 1)) fun hdepth hnodes => ?_
      refine ⟨parseChildren_within hitems (Nat.succ_le_succ hdepth) hnodes, ?_⟩
      rw [parseCondition_sequence (.inl rfl) hdepth hnodes]
      rfl
  | @any items children hlength h ih =>
      have hitems := List.forall₂_iff_zip.2 ⟨hlength, fun hmem => ih _ _ hmem⟩
      refine .node .any (parseChildren rt items (depth + 1) (nodes + 1)) fun hdepth hnodes => ?_
      refine ⟨parseChildren_within hitems (Nat.succ_le_succ hdepth) hnodes, ?_⟩
      rw [parseCondition_sequence (.inr rfl) hdepth hnodes]
      rfl
  | @not value child h ih =>
      refine .node .not (parseCondition rt value (depth + 1) (nodes + 1)) fun hdepth hnodes => ?_
      exact ⟨ih _ _, parseCondition_not hdepth hnodes⟩

/-! ## What is accepted

The two inductions put together, for a condition at the root of a rule. -/

theorem room_of_parseCondition_ok {document : Yaml} {depth nodes : ℕ} {read : Condition × ℕ}
    (h : parseCondition rt document depth nodes = .ok read) :
    depth ≤ maxConditionDepth ∧ nodes + 1 ≤ maxConditionNodes := by
  by_contra hroom
  obtain ⟨text, hrun⟩ := parseCondition_beyond document hroom
  rw [h] at hrun
  cases hrun

theorem denotes_of_parseChildren_ok {items : List Yaml}
    (h : ∀ item ∈ items, ∀ {depth nodes : ℕ} {read : Condition × ℕ},
      parseCondition rt item depth nodes = .ok read → Denotes rt item read.1)
    {depth nodes : ℕ} {read : List Condition × ℕ}
    (hrun : parseChildren rt items depth nodes = .ok read) :
    List.Forall₂ (Denotes rt) items read.1 := by
  induction items generalizing nodes read with
  | nil =>
      rw [parseChildren] at hrun
      obtain rfl := Except.ok.inj hrun
      exact .nil
  | cons item items ih =>
      rw [List.forall_mem_cons] at h
      simp only [parseChildren, bind_ok_iff] at hrun
      obtain ⟨child, hitem, children, hitems, hread⟩ := hrun
      obtain rfl := Except.ok.inj hread
      exact .cons (h.1 hitem) (ih h.2 hitems)

/-- Whatever the parser reads as a condition is locally valid throughout. -/
theorem denotes_of_parseCondition_ok {document : Yaml} {depth nodes : ℕ} {read : Condition × ℕ}
    (h : parseCondition rt document depth nodes = .ok read) : Denotes rt document read.1 := by
  induction document using condition_induction generalizing depth nodes read with
  | notMapping document hdocument =>
      obtain ⟨hdepth, hnodes⟩ := room_of_parseCondition_ok h
      rw [parseCondition.eq_def, if_neg (not_lt.2 hdepth)] at h
      simp only [if_neg (not_lt.2 hnodes)] at h
      split at h
      · cases hdocument
      · cases h
  | notSingleton fields hsingle =>
      obtain ⟨hdepth, hnodes⟩ := room_of_parseCondition_ok h
      cases hoperator : booleanOperator fields with
      | none =>
          rw [parseCondition_leaves hoperator hdepth hnodes, bind_ok_iff] at h
          obtain ⟨leaves, hleaves, hread⟩ := h
          obtain rfl := Except.ok.inj hread
          exact .leaves (leafFields_values hleaves)
      | some operator =>
          have hlength := hsingle operator hoperator
          rw [parseCondition, if_neg (not_lt.2 hdepth)] at h
          simp only [if_neg (not_lt.2 hnodes), hoperator] at h
          split at h
          · exact absurd rfl hlength
          · cases h
  | operator operator hmem operand hoperand hitems =>
      obtain ⟨hdepth, hnodes⟩ := room_of_parseCondition_ok h
      by_cases hsequence : operator = "all" ∨ operator = "any"
      · cases operand with
        | sequence items =>
            rw [parseCondition_sequence hsequence hdepth hnodes, bind_ok_iff] at h
            obtain ⟨below, hbelow, hread⟩ := h
            obtain rfl := Except.ok.inj hread
            have hchildren := denotes_of_parseChildren_ok
              (fun item hitem _ _ _ => hitems items rfl item hitem) hbelow
            have hall := List.forall₂_iff_zip.1 hchildren
            rcases hsequence with rfl | rfl
            · exact .all hall.1 fun item child hmem => hall.2 hmem
            · exact .any hall.1 fun item child hmem => hall.2 hmem
        | _ =>
            rw [parseCondition, if_neg (not_lt.2 hdepth)] at h
            simp only [if_neg (not_lt.2 hnodes), booleanOperator_singleton hmem,
              if_pos hsequence] at h
            cases h
      · obtain rfl : operator = "not" := by
          simp only [List.mem_cons, List.not_mem_nil, or_false] at hmem
          tauto
        rw [parseCondition_not hdepth hnodes, bind_ok_iff] at h
        obtain ⟨below, hbelow, hread⟩ := h
        obtain rfl := Except.ok.inj hread
        exact .not (hoperand hbelow)

/-- **What the parser accepts as a condition.**  A document whose nodes are all locally valid, with
at most 32 levels and at most 128 nodes. -/
theorem parseConditions_ok_iff {document : Yaml} {condition : Condition} :
    parseConditions rt (some document) = .ok condition ↔
      Denotes rt document condition ∧ condition.levels ≤ maxConditionDepth ∧
        condition.nodes ≤ maxConditionNodes := by
  simp only [parseConditions, bind_ok_iff]
  constructor
  · rintro ⟨read, hrun, hread⟩
    obtain rfl := Except.ok.inj hread
    have hdenotes := denotes_of_parseCondition_ok hrun
    have hwithin := hdenotes.readsWithin 1 0
    by_cases hfit : WithinBounds 1 0 read.1.levels read.1.nodes
    · exact ⟨hdenotes, by have := hfit.1; omega, by have := hfit.2; omega⟩
    · obtain ⟨text, herror⟩ := hwithin.exceeds hfit
      rw [hrun] at herror
      cases herror
  · rintro ⟨hdenotes, hlevels, hnodes⟩
    have hfit : WithinBounds 1 0 condition.levels condition.nodes := ⟨by omega, by omega⟩
    exact ⟨_, (hdenotes.readsWithin 1 0).fits hfit, rfl⟩

/-- **The bounds on conditions are exact.**  A document whose nodes are all locally valid stands
for a condition of the same shape and with the same operators and leaf values.  The parser
returns this condition iff it has at most 32 levels and at most 128 nodes, and refuses the document
as an invalid condition otherwise. -/
theorem parseConditions_bounds_exact {document : Yaml} (h : LocallyValid rt document) :
    ∃ condition, Denotes rt document condition ∧
      ((∃ parsed, parseConditions rt (some document) = .ok parsed) ↔
        condition.levels ≤ 32 ∧ condition.nodes ≤ 128) ∧
      (∀ parsed, parseConditions rt (some document) = .ok parsed → parsed = condition) ∧
      (¬ (condition.levels ≤ 32 ∧ condition.nodes ≤ 128) →
        ∃ text, parseConditions rt (some document) = .error (.invalidCondition text)) := by
  obtain ⟨condition, hdenotes⟩ := h.exists_denotes
  have hwithin := hdenotes.readsWithin 1 0
  have hbounds : WithinBounds 1 0 condition.levels condition.nodes ↔
      condition.levels ≤ 32 ∧ condition.nodes ≤ 128 := by
    simp only [WithinBounds, maxConditionDepth, maxConditionNodes]
    omega
  have hexceeds : ¬ (condition.levels ≤ 32 ∧ condition.nodes ≤ 128) →
      ∃ text, parseConditions rt (some document) = .error (.invalidCondition text) := by
    intro hbeyond
    obtain ⟨text, hrun⟩ := hwithin.exceeds (mt hbounds.1 hbeyond)
    exact ⟨text, by rw [parseConditions, hrun, error_bind]⟩
  have hfits : condition.levels ≤ 32 ∧ condition.nodes ≤ 128 →
      parseConditions rt (some document) = .ok condition := by
    intro hbound
    rw [parseConditions, hwithin.fits (hbounds.2 hbound)]
    rfl
  refine ⟨condition, hdenotes, ⟨fun hparsed => ?_, fun hbound => ⟨_, hfits hbound⟩⟩, ?_, hexceeds⟩
  · by_contra hbeyond
    obtain ⟨text, herror⟩ := hexceeds hbeyond
    exact ok_not_error hparsed ⟨_, herror⟩
  · intro parsed hparsed
    by_cases hbound : condition.levels ≤ 32 ∧ condition.nodes ≤ 128
    · rw [hfits hbound] at hparsed
      exact (Except.ok.inj hparsed).symm
    · obtain ⟨text, herror⟩ := hexceeds hbound
      rw [hparsed] at herror
      cases herror

theorem parseConditions_bounds_exact_sample :
    let rt : YamlRuntime := ⟨fun _ => "", fun _ => none⟩
    let document := Yaml.mapping [(.string "all", .sequence [
      .mapping [(.string "path_pattern", .string "*.txt")],
      .mapping [(.string "not", .mapping [])]])]
    ∃ condition, Denotes rt document condition ∧
      ((∃ parsed, parseConditions rt (some document) = .ok parsed) ↔
        condition.levels ≤ 32 ∧ condition.nodes ≤ 128) ∧
      (∀ parsed, parseConditions rt (some document) = .ok parsed → parsed = condition) ∧
      (¬ (condition.levels ≤ 32 ∧ condition.nodes ≤ 128) →
        ∃ text, parseConditions rt (some document) = .error (.invalidCondition text)) := by
  intro rt document
  have hleaf : LocallyValid rt (.mapping [(.string "path_pattern", .string "*.txt")]) :=
    .leaves (by simpa using ValidLeaf.pathPattern (by decide))
  have hempty : LocallyValid rt (.mapping []) := .leaves (by simp)
  refine parseConditions_bounds_exact (.all ?_)
  simpa using ⟨hleaf, .not hempty⟩

end

end HpGuardian

import HpGuardian.Parity.Documents
import HpGuardian.Policy.ConditionTrees
import HpGuardian.Parity.Engine

/-!
# The two parsers read the same conditions

A condition mapping is either one boolean operator over further conditions, or leaves.  Both
parsers read it so, but what they make of it is different: an enumeration in the one runtime, a
dictionary in the other.  The leaves are read one by one into a record by one parser and into a
dictionary by the other; the number of nodes seen so far is threaded through both.

The comparison goes through the outcomes only, so the order in which the parsers check things does
not matter where all checks have to pass.  It does matter that they count alike, since the bound on
the number of nodes is met at the same node by both or by neither: the count is part of what is
compared (`SameParsed`).

`Plain.condition_induction` is the induction over documents that both parsers follow.  The
documents are plain ones, in which the two runtimes see the same scalars as strings.
-/

namespace HpGuardian

open Framework

section

variable {rt : YamlRuntime} {prt : Python.YamlRuntime}

theorem rejectUnknownFields_cases (prt : Python.YamlRuntime) (fields : Fields)
    (allowed : List String) (name code : String) :
    (fields.KnownKeys allowed ∧
        Python.rejectUnknownFields prt fields allowed name code = .ok ()) ∨
      (¬ fields.KnownKeys allowed ∧
        ∃ e, Python.rejectUnknownFields prt fields allowed name code = .error e) := by
  have hknown : (fields.find? fun entry =>
      !allowed.any fun field => entry.1.asStr == some field) = none ↔ fields.KnownKeys allowed := by
    simp only [List.find?_eq_none, Bool.not_eq_true', Bool.not_eq_false, List.any_eq_true,
      asStr_beq, Fields.KnownKeys]
  unfold Python.rejectUnknownFields
  cases hfind : fields.find? _ with
  | none => exact .inl ⟨hknown.1 hfind, rfl⟩
  | some entry =>
      refine .inr ⟨fun h => ?_, _, rfl⟩
      rw [hknown.2 h] at hfind
      cases hfind

/-! ## Time windows

The two ends of a window are timestamps, which the parsers read with one function of a library; a
window is accepted if both are there, both are instants, and they are in order. -/

/-- The instant a timestamp value denotes. -/
def instantOf (rt : YamlRuntime) (value : Yaml) : Option Instant :=
  value.asStr.bind rt.utcTimestamp

theorem instantOf_eq_some {value : Yaml} {instant : Instant} :
    instantOf rt value = some instant ↔
      ∃ text, value = .string text ∧ rt.utcTimestamp text = some instant := by
  simp [instantOf, Option.bind_eq_some_iff]

theorem python_parseUtcTimestamp_ok {value : Option Yaml} {instant : Instant} :
    Python.parseUtcTimestamp rt.utcTimestamp value = .ok instant ↔
      ∃ v, value = some v ∧ instantOf rt v = some instant := by
  simp only [instantOf_eq_some, Python.parseUtcTimestamp]
  constructor
  · intro h
    split at h
    · next text =>
        cases hinstant : rt.utcTimestamp text with
        | none => simp [hinstant] at h
        | some found =>
            rw [hinstant] at h
            obtain rfl := Except.ok.inj h
            exact ⟨_, rfl, text, rfl, hinstant⟩
    · cases h
  · rintro ⟨-, rfl, text, rfl, hinstant⟩
    simp [hinstant]

/-- A field of a `time_window` mapping is accepted iff it is a named end with a valid instant. -/
theorem timeWindowFields_isOk (fields : Fields) (acc : Option Instant × Option Instant) :
    (∃ acc', fields.foldlM (timeWindowField rt) acc = .ok acc') ↔
      ∀ entry ∈ fields, (entry.1 = .string "start" ∨ entry.1 = .string "end") ∧
        ∃ instant, instantOf rt entry.2 = some instant := by
  refine foldlM_isOk_iff (fun acc entry => ?_) fields acc
  obtain ⟨key, value⟩ := entry
  constructor
  · rintro ⟨acc', h⟩
    obtain ⟨text, instant, rfl, hinstant, hkey⟩ := timeWindowField_cases h
    exact ⟨hkey.imp And.left And.left, instant, hinstant⟩
  · rintro ⟨hkey, instant, hinstant⟩
    obtain ⟨text, rfl, htext⟩ := instantOf_eq_some.1 hinstant
    rcases hkey with rfl | rfl
    · exact ⟨(some instant, acc.2), by
        simp [timeWindowField, fieldName, stringOr, Yaml.asStr, orElseError, bind, Except.bind,
          Except.mapError, parseUtcTimestamp, htext]⟩
    · exact ⟨(acc.1, some instant), by
        simp [timeWindowField, fieldName, stringOr, Yaml.asStr, orElseError, bind, Except.bind,
          Except.mapError, parseUtcTimestamp, htext]⟩

theorem timeWindowFields_ok {fields : Fields} (hdistinct : fields.DistinctKeys)
    {acc : Option Instant × Option Instant}
    (hrun : fields.foldlM (timeWindowField rt) (none, none) = .ok acc) :
    acc = ((fields.get "start").bind (instantOf rt), (fields.get "end").bind (instantOf rt)) := by
  have hstart := Fields.foldlM_slot Prod.fst "start" (fun value _ => instantOf rt value) hdistinct
    (fun acc acc' entry hkey h => by
      obtain ⟨_, _, _, _, ⟨hstart, -⟩ | ⟨-, rfl⟩⟩ := timeWindowField_cases h
      · exact absurd hstart hkey
      · rfl)
    (fun acc acc' value h => by
      obtain ⟨text, _, rfl, hinstant, ⟨-, rfl⟩ | ⟨hkey, -⟩⟩ := timeWindowField_cases h
      · exact hinstant.symm
      · simp at hkey) hrun
  have hstop := Fields.foldlM_slot Prod.snd "end" (fun value _ => instantOf rt value) hdistinct
    (fun acc acc' entry hkey h => by
      obtain ⟨_, _, _, _, ⟨-, rfl⟩ | ⟨hend, -⟩⟩ := timeWindowField_cases h
      · rfl
      · exact absurd hend hkey)
    (fun acc acc' value h => by
      obtain ⟨text, _, rfl, hinstant, ⟨hkey, -⟩ | ⟨-, rfl⟩⟩ := timeWindowField_cases h
      · simp at hkey
      · exact hinstant.symm) hrun
  refine Prod.ext (hstart.trans ?_) (hstop.trans ?_)
  · cases fields.get "start" <;> rfl
  · cases fields.get "end" <;> rfl

theorem keysAre_iff {fields : Fields} {names : List String} :
    Python.keysAre fields names = true ↔
      fields.KnownKeys names ∧ ∀ name ∈ names, (fields.get name).isSome := by
  simp only [Python.keysAre, Bool.and_eq_true, List.all_eq_true, List.any_eq_true, asStr_beq,
    Fields.KnownKeys]

/-- The two ends of a time window, in order: both fields are there, both are timestamps, and there
is no other field. -/
structure WindowFields (rt : YamlRuntime) (fields : Fields) (start stop : Instant) : Prop where
  known : fields.KnownKeys ["start", "end"]
  start_eq : (fields.get "start").bind (instantOf rt) = some start
  stop_eq : (fields.get "end").bind (instantOf rt) = some stop
  lt : start < stop

theorem WindowFields.isOk {fields : Fields} (hdistinct : fields.DistinctKeys)
    {start stop : Instant} (h : WindowFields rt fields start stop)
    (acc : Option Instant × Option Instant) :
    ∃ acc', fields.foldlM (timeWindowField rt) acc = .ok acc' := by
  rw [timeWindowFields_isOk]
  rintro ⟨key, value⟩ hentry
  obtain ⟨name, hname, hkey⟩ := h.known _ hentry
  obtain rfl : key = .string name := hkey
  have hget := Fields.get_of_mem hdistinct hentry
  simp only [List.mem_cons, List.not_mem_nil, or_false] at hname
  rcases hname with rfl | rfl
  · have hstart := h.start_eq
    rw [hget] at hstart
    exact ⟨.inl rfl, start, hstart⟩
  · have hstop := h.stop_eq
    rw [hget] at hstop
    exact ⟨.inr rfl, stop, hstop⟩

/-- What the Rust parser accepts as a time window. -/
theorem parseTimeWindow_ok {fields : Fields} (hdistinct : fields.DistinctKeys)
    {window : TimeWindow} :
    parseTimeWindow rt (.mapping fields) = .ok window ↔
      WindowFields rt fields window.start window.stop := by
  simp only [parseTimeWindow, orElseError, mappingOf, Yaml.asMapping, Except.mapError, bind,
    Except.bind]
  constructor
  · intro h
    split at h
    · cases h
    · cases hrun : fields.foldlM (timeWindowField rt) (none, none) with
      | error e => simp [hrun] at h
      | ok acc =>
          have hknown : fields.KnownKeys ["start", "end"] := fun entry hentry => by
            obtain ⟨hkey, -⟩ := (timeWindowFields_isOk fields _).1 ⟨acc, hrun⟩ entry hentry
            rcases hkey with hkey | hkey <;> simp [hkey]
          obtain rfl := timeWindowFields_ok hdistinct hrun
          simp only [hrun] at h
          cases hstart : (fields.get "start").bind (instantOf rt) with
          | none => simp [hstart] at h
          | some start =>
              cases hstop : (fields.get "end").bind (instantOf rt) with
              | none => simp [hstart, hstop] at h
              | some stop =>
                  simp only [hstart, hstop] at h
                  split at h
                  · next hlt =>
                      obtain rfl := Except.ok.inj h
                      exact ⟨hknown, hstart, hstop, hlt⟩
                  · cases h
  · intro h
    have hlength : fields.length = 2 := Fields.length_eq hdistinct h.known (by decide) (by
      have hstart := h.start_eq
      have hstop := h.stop_eq
      rw [Option.bind_eq_some_iff] at hstart hstop
      obtain ⟨_, hstart, -⟩ := hstart
      obtain ⟨_, hstop, -⟩ := hstop
      simp [hstart, hstop])
    obtain ⟨acc, hrun⟩ := h.isOk hdistinct (none, none)
    rw [if_neg (not_not.2 hlength), hrun, timeWindowFields_ok hdistinct hrun]
    simp [h.start_eq, h.stop_eq, h.lt]

/-- What the Python parser accepts as a time window. -/
theorem python_parseTimeWindow_ok {fields : Fields} {window : Instant × Instant} :
    Python.parseTimeWindow rt.utcTimestamp (.mapping fields) = .ok window ↔
      WindowFields rt fields window.1 window.2 := by
  simp only [Python.parseTimeWindow, Yaml.asMapping]
  constructor
  · intro h
    split at h
    · next hkeys =>
        cases hstart : Python.parseUtcTimestamp rt.utcTimestamp (fields.get "start") with
        | error e => simp [hstart, bind, Except.bind] at h
        | ok start =>
            cases hstop : Python.parseUtcTimestamp rt.utcTimestamp (fields.get "end") with
            | error e => simp [hstart, hstop, bind, Except.bind] at h
            | ok stop =>
                simp only [hstart, hstop, bind, Except.bind] at h
                obtain ⟨v, hv, hstart⟩ := python_parseUtcTimestamp_ok.1 hstart
                obtain ⟨w, hw, hstop⟩ := python_parseUtcTimestamp_ok.1 hstop
                split at h
                · cases h
                · next hlt =>
                    obtain rfl := Except.ok.inj h
                    exact ⟨(keysAre_iff.1 hkeys).1, by rw [hv]; exact hstart,
                      by rw [hw]; exact hstop, not_le.1 hlt⟩
    · cases h
  · intro h
    obtain ⟨v, hv, hstart⟩ := Option.bind_eq_some_iff.1 h.start_eq
    obtain ⟨w, hw, hstop⟩ := Option.bind_eq_some_iff.1 h.stop_eq
    rw [if_pos (keysAre_iff.2 ⟨h.known, by simp [hv, hw]⟩),
      python_parseUtcTimestamp_ok.2 ⟨v, hv, hstart⟩, python_parseUtcTimestamp_ok.2 ⟨w, hw, hstop⟩]
    simp only [bind, Except.bind]
    rw [if_neg (not_le.2 h.lt)]

theorem sameOutcome_parseTimeWindow {value : Yaml} (h : Plain .window value) :
    SameOutcome (fun window read => read = (window.start, window.stop)) (parseTimeWindow rt value)
      (Python.parseTimeWindow rt.utcTimestamp value) := by
  cases value with
  | mapping fields =>
      refine .of_forall (fun window hwindow => ?_) (fun window hwindow => ?_)
      · exact ⟨_, python_parseTimeWindow_ok.2 ((parseTimeWindow_ok h.distinctKeys).1 hwindow), rfl⟩
      · exact ⟨⟨window.1, window.2⟩,
          (parseTimeWindow_ok h.distinctKeys).2 (python_parseTimeWindow_ok.1 hwindow)⟩
  | _ => exact .error

/-! ## Leaves of a condition

One leaf is read into a field of a record or under a key of a dictionary.  The two loops are
related entry by entry, with the keys of the entries still to come all new. -/

theorem lookup_append_new {entries : List (String × Python.Operand)} {key : String}
    (hnew : entries.lookup key = none) (operand : Python.Operand) (other : String) :
    (entries ++ [(key, operand)]).lookup other =
      if other = key then some operand else entries.lookup other := by
  rw [List.lookup_append]
  by_cases hkey : other = key
  · simp [hkey, hnew]
  · simp [List.lookup_cons, hkey, beq_false_of_ne hkey]

theorem nodup_append_new {entries : List (String × Python.Operand)} {key : String}
    (hnodup : (entries.map Prod.fst).Nodup) (hnew : entries.lookup key = none)
    (operand : Python.Operand) : ((entries ++ [(key, operand)]).map Prod.fst).Nodup := by
  rw [List.map_append, List.map_singleton, ← List.concat_eq_append, List.nodup_concat]
  refine ⟨?_, hnodup⟩
  rw [List.mem_map]
  rintro ⟨entry, hentry, rfl⟩
  rw [lookup_eq_of_mem hnodup hentry] at hnew
  cases hnew

variable {a p : Option String} {t : Option TimeWindow} {entries : List (String × Python.Operand)}

theorem SameLeaves.addArgsMatch (h : SameLeaves rt.utcTimestamp a p t entries)
    (hnew : entries.lookup "args_match" = none) {text : String} {parsed : ArgsPattern}
    (hparse : parseArgsPattern text = .ok parsed) :
    SameLeaves rt.utcTimestamp (some text) p t (entries ++ [("args_match", .text text)]) where
  nodup := nodup_append_new h.nodup hnew _
  keys := by
    rw [List.forall_mem_append]
    exact ⟨h.keys, by simp⟩
  argsMatch := by simp [lookup_append_new hnew]
  accepted := by simpa using ⟨parsed, hparse⟩
  pathPattern := by simpa [lookup_append_new hnew] using h.pathPattern
  timeWindow := by simpa [lookup_append_new hnew] using h.timeWindow

theorem SameLeaves.addPathPattern (h : SameLeaves rt.utcTimestamp a p t entries)
    (hnew : entries.lookup "path_pattern" = none) (text : String) :
    SameLeaves rt.utcTimestamp a (some text) t (entries ++ [("path_pattern", .text text)]) where
  nodup := nodup_append_new h.nodup hnew _
  keys := by
    rw [List.forall_mem_append]
    exact ⟨h.keys, by simp⟩
  argsMatch := by simpa [lookup_append_new hnew] using h.argsMatch
  accepted := h.accepted
  pathPattern := by simp [lookup_append_new hnew]
  timeWindow := by simpa [lookup_append_new hnew] using h.timeWindow

theorem SameLeaves.addTimeWindow (h : SameLeaves rt.utcTimestamp a p t entries)
    (hnew : entries.lookup "time_window" = none) {value : Yaml} {window : TimeWindow}
    (hparse : Python.parseTimeWindow rt.utcTimestamp value = .ok (window.start, window.stop)) :
    SameLeaves rt.utcTimestamp a p (some window)
      (entries ++ [("time_window", .window value)]) where
  nodup := nodup_append_new h.nodup hnew _
  keys := by
    rw [List.forall_mem_append]
    exact ⟨h.keys, by simp⟩
  argsMatch := by simpa [lookup_append_new hnew] using h.argsMatch
  accepted := h.accepted
  pathPattern := by simpa [lookup_append_new hnew] using h.pathPattern
  timeWindow := by
    rw [lookup_append_new hnew, if_pos rfl]
    exact .some ⟨value, rfl, hparse⟩

theorem sameLeaves_nil : SameLeaves rt.utcTimestamp none none none [] where
  nodup := List.nodup_nil
  keys := by simp
  argsMatch := rfl
  accepted := by simp
  pathPattern := rfl
  timeWindow := .none

/-- The entries still to come are leaves under new keys. It says of the rest of a mapping what the
two loops need to stay related. -/
structure LeavesToCome (fields : Fields) (entries : List (String × Python.Operand)) : Prop where
  known : fields.KnownKeys ["args_match", "path_pattern", "time_window"]
  distinct : fields.DistinctKeys
  plain : ∀ entry ∈ fields, Plain (Place.child .document entry.1) entry.2
  new : ∀ name value, (Yaml.string name, value) ∈ fields → entries.lookup name = none

/-- Reading a leaf leaves the later ones under new keys. -/
theorem LeavesToCome.tail {name : String} {value : Yaml} {rest : Fields}
    (h : LeavesToCome ((.string name, value) :: rest) entries) (operand : Python.Operand) :
    LeavesToCome rest (entries ++ [(name, operand)]) where
  known := fun entry hentry => h.known entry (List.mem_cons_of_mem _ hentry)
  distinct := h.distinct.tail
  plain := fun entry hentry => h.plain entry (List.mem_cons_of_mem _ hentry)
  new := by
    intro later value' hlater
    have hne : later ≠ name := by
      rintro rfl
      exact h.distinct.head_new _ hlater rfl
    rw [lookup_append_new (h.new name value (by simp)), if_neg hne]
    exact h.new later value' (List.mem_cons_of_mem _ hlater)

/-- One leaf, read by both parsers. -/
theorem sameOutcome_leafField (hts : prt.utcTimestamp = rt.utcTimestamp) {acc : LeafFields}
    {entry : Yaml × Yaml} {rest : Fields}
    (h : SameLeaves rt.utcTimestamp acc.argsMatch acc.pathPattern acc.timeWindow entries)
    (hcome : LeavesToCome (entry :: rest) entries) :
    SameOutcome
      (fun acc entries =>
        SameLeaves rt.utcTimestamp acc.argsMatch acc.pathPattern acc.timeWindow entries ∧
          LeavesToCome rest entries)
      (leafField rt acc entry) (Python.leafField prt entries entry) := by
  obtain ⟨key, value⟩ := entry
  obtain ⟨name, hname, hkey⟩ := hcome.known (key, value) (by simp)
  obtain rfl : key = .string name := hkey
  have hnew := hcome.new name value (by simp)
  have hplain := hcome.plain (.string name, value) (by simp)
  -- both parsers read the key
  refine SameOutcome.bind (R := fun rust python => rust = name ∧ python = name)
    (.ok ⟨rfl, rfl⟩) ?_
  rintro _ _ ⟨rfl, rfl⟩
  simp only [List.mem_cons, List.not_mem_nil, or_false] at hname
  rcases hname with rfl | rfl | rfl
  · -- `args_match`: a string that both pattern parsers accept
    rw [if_pos rfl, if_pos rfl]
    refine SameOutcome.bind (R := Eq)
      (sameOutcome_string hplain (Place.child_document_ne _) prt _ _ _ _) ?_
    rintro text - rfl
    have hpatterns := sameOutcome_parseArgsPattern text
    unfold validateArgsMatch
    cases hparse : parseArgsPattern text with
    | error reason =>
        rw [hparse] at hpatterns
        generalize Python.parseArgsPattern text = parsed at hpatterns ⊢
        cases hpatterns
        exact .error
    | ok pattern =>
        rw [hparse] at hpatterns
        generalize Python.parseArgsPattern text = parsed at hpatterns ⊢
        cases hpatterns
        exact .ok ⟨h.addArgsMatch hnew hparse, hcome.tail _⟩
  · -- `path_pattern`: a string
    rw [if_neg (by decide), if_pos rfl, if_neg (by decide), if_pos rfl]
    refine SameOutcome.bind (R := Eq)
      (sameOutcome_string hplain (Place.child_document_ne _) prt _ _ _ _) ?_
    rintro text - rfl
    exact .ok ⟨h.addPathPattern hnew text, hcome.tail _⟩
  · -- `time_window`: the same pair of instants
    rw [if_neg (by decide), if_neg (by decide), if_pos rfl, if_neg (by decide),
      if_neg (by decide), hts]
    have hwindows := @sameOutcome_parseTimeWindow rt value hplain
    cases hparse : Python.parseTimeWindow rt.utcTimestamp value with
    | error reason =>
        rw [hparse] at hwindows
        generalize parseTimeWindow rt value = window at hwindows ⊢
        cases hwindows
        exact .error
    | ok read =>
        obtain ⟨window, hrust, rfl⟩ := hwindows.exists_left hparse
        rw [hrust]
        exact .ok ⟨h.addTimeWindow hnew hparse, hcome.tail _⟩

/-- The leaves of a condition mapping, read by both parsers. -/
theorem sameOutcome_leaves (hts : prt.utcTimestamp = rt.utcTimestamp) {fields : Fields}
    (hplain : Plain .document (.mapping fields))
    (hknown : fields.KnownKeys ["args_match", "path_pattern", "time_window"]) :
    SameOutcome
      (fun leaves entries =>
        SameLeaves rt.utcTimestamp leaves.argsMatch leaves.pathPattern leaves.timeWindow entries)
      (fields.foldlM (leafField rt) ⟨none, none, none⟩)
      (fields.foldlM (Python.leafField prt) []) := by
  have hcome : LeavesToCome fields [] :=
    ⟨hknown, hplain.distinctKeys, fun entry hentry => (hplain.entry hentry).2, by simp⟩
  have hloops := SameOutcome.foldlM_same (f := leafField rt) (g := Python.leafField prt)
    (Q := fun rest acc entries =>
      SameLeaves rt.utcTimestamp acc.argsMatch acc.pathPattern acc.timeWindow entries ∧
        LeavesToCome rest entries)
    (fun entry rest acc entries h => sameOutcome_leafField hts h.1 h.2)
    (a := ⟨none, none, none⟩) ⟨sameLeaves_nil, hcome⟩
  exact hloops.mono (fun _ _ h => h.1)

/-! ## Conditions

Compositions, and the induction that puts everything together. -/

/-- The same condition, after the same number of nodes. The count is compared because the bound on
it is checked while reading. -/
def SameParsed (utcTimestamp : String → Option Instant) (rust : Condition × ℕ)
    (python : Python.Condition × ℕ) : Prop :=
  SameCondition utcTimestamp rust.1 python.1 ∧ python.2 = rust.2

/-- The children of a composition, when the parsers agree on each. -/
theorem sameOutcome_parseChildren {items : List Yaml}
    (ih : ∀ item ∈ items, ∀ depth nodes,
      SameOutcome (SameParsed rt.utcTimestamp) (parseCondition rt item depth nodes)
        (Python.parseConditionNode prt item depth nodes)) (depth nodes : ℕ) :
    SameOutcome
      (fun rust python =>
        List.Forall₂ (SameCondition rt.utcTimestamp) rust.1 python.1 ∧ python.2 = rust.2)
      (parseChildren rt items depth nodes) (Python.parseChildren prt items depth nodes) := by
  induction items generalizing nodes with
  | nil =>
      rw [parseChildren, Python.parseChildren]
      exact .ok ⟨.nil, rfl⟩
  | cons item items ihitems =>
      obtain ⟨hitem, hitems⟩ := List.forall_mem_cons.1 ih
      have hhead := hitem depth nodes
      rw [parseChildren, Python.parseChildren]
      generalize parseCondition rt item depth nodes = rust at hhead ⊢
      generalize Python.parseConditionNode prt item depth nodes = python at hhead ⊢
      cases hhead with
      | error => exact .error
      | @ok rust python hhead =>
          obtain ⟨child, rustNodes⟩ := rust
          obtain ⟨pythonChild, nodes'⟩ := python
          obtain ⟨hchild, hnodes⟩ := hhead
          obtain rfl : nodes' = rustNodes := hnodes
          have htail := ihitems hitems nodes'
          simp only [bind, Except.bind]
          generalize parseChildren rt items depth nodes' = rust at htail ⊢
          generalize Python.parseChildren prt items depth nodes' = python at htail ⊢
          cases htail with
          | error => exact .error
          | ok htail => exact .ok ⟨.cons hchild htail.1, htail.2⟩

theorem booleanOperator_eq_none {fields : Fields} (h : booleanOperator fields = none) :
    ["all", "any", "not"].filter (fun name => (fields.get name).isSome) = [] := by
  rw [booleanOperator, List.findSome?_eq_none_iff] at h
  rw [List.filter_eq_nil_iff]
  intro name hname hpresent
  obtain ⟨value, hvalue⟩ := Option.isSome_iff_exists.1 hpresent
  have hnone := h _ (Fields.mem_of_get hvalue)
  simp only [List.mem_cons, List.not_mem_nil, or_false] at hname
  rcases hname with rfl | rfl | rfl <;> simp [Yaml.asStr] at hnone

/-- A mapping with one boolean operator and nothing else. -/
theorem operators_singleton {operator : String} {operand : Yaml}
    (hoperator : operator ∈ ["all", "any", "not"]) :
    ["all", "any", "not"].filter (fun name =>
      (Fields.get [(.string operator, operand)] name).isSome) = [operator] := by
  simp only [List.mem_cons, List.not_mem_nil, or_false] at hoperator
  rcases hoperator with rfl | rfl | rfl <;> rfl

/-- Neither parser reads anything but a mapping as a condition. -/
theorem sameOutcome_notMapping {value : Yaml} (hvalue : value.asMapping = none)
    (depth nodes : ℕ) :
    SameOutcome (SameParsed rt.utcTimestamp) (parseCondition rt value depth nodes)
      (Python.parseConditionNode prt value depth nodes) := by
  rw [parseCondition.eq_def, Python.parseConditionNode.eq_def]
  cases value with
  | mapping fields => cases hvalue
  | _ => dsimp only; split_ifs <;> exact .error

theorem mem_conditionFields {name : String} :
    name ∈ Python.conditionFields ↔
      name ∈ ["args_match", "path_pattern", "time_window"] ∨ name ∈ ["all", "any", "not"] := by
  simp only [Python.conditionFields, List.mem_cons, List.not_mem_nil, or_false]
  tauto

theorem knownKeys_singleton {operator : String} {operand : Yaml}
    (hoperator : operator ∈ ["all", "any", "not"]) :
    Fields.KnownKeys [(.string operator, operand)] Python.conditionFields := by
  intro entry hmem
  rw [List.mem_singleton.1 hmem]
  exact ⟨operator, mem_conditionFields.2 (.inr hoperator), rfl⟩

/-- The Rust parser rejects a condition mapping with an unknown field. -/
theorem knownKeys_of_parseCondition {fields : Fields} {depth nodes : ℕ} {parsed : Condition × ℕ}
    (h : parseCondition rt (.mapping fields) depth nodes = .ok parsed) :
    fields.KnownKeys Python.conditionFields := by
  have hdenotes := denotes_of_parseCondition_ok h
  generalize hdocument : Yaml.mapping fields = document, parsed.1 = condition at hdenotes
  cases hdenotes with
  | leaves hleaves =>
      obtain rfl := Yaml.mapping.inj hdocument
      intro entry hentry
      obtain ⟨name, hname, hkey⟩ := (hleaves.valid entry hentry).key
      exact ⟨name, mem_conditionFields.2 (.inl hname), hkey⟩
  | all =>
      obtain rfl := Yaml.mapping.inj hdocument
      exact knownKeys_singleton (by simp)
  | any =>
      obtain rfl := Yaml.mapping.inj hdocument
      exact knownKeys_singleton (by simp)
  | not =>
      obtain rfl := Yaml.mapping.inj hdocument
      exact knownKeys_singleton (by simp)

/-- Without a boolean operator the known fields of a condition are its leaves. -/
theorem knownLeaves {fields : Fields} (hknown : fields.KnownKeys Python.conditionFields)
    (hdistinct : fields.DistinctKeys) (hoperator : booleanOperator fields = none) :
    fields.KnownKeys ["args_match", "path_pattern", "time_window"] := by
  intro entry hentry
  obtain ⟨name, hname, hkey⟩ := hknown entry hentry
  refine ⟨name, ?_, hkey⟩
  have habsent := List.filter_eq_nil_iff.1 (booleanOperator_eq_none hoperator)
  have hpresent : (fields.get name).isSome = true := by
    obtain ⟨key, value⟩ := entry
    obtain rfl : key = .string name := hkey
    rw [Fields.get_of_mem hdistinct hentry]
    rfl
  exact (mem_conditionFields.1 hname).resolve_right (fun hmem => habsent name hmem hpresent)

/-- A condition mapping with one boolean operator, when the parsers agree on its operand. -/
theorem sameOutcome_operator {operator : String} {operand : Yaml} {depth nodes : ℕ}
    (hoperator : operator ∈ ["all", "any", "not"])
    (hoperand : SameOutcome (SameParsed rt.utcTimestamp)
      (parseCondition rt operand (depth + 1) (nodes + 1))
      (Python.parseConditionNode prt operand (depth + 1) (nodes + 1)))
    (hitems : ∀ items, operand = .sequence items →
      SameOutcome
        (fun rust python =>
          List.Forall₂ (SameCondition rt.utcTimestamp) rust.1 python.1 ∧ python.2 = rust.2)
        (parseChildren rt items (depth + 1) (nodes + 1))
        (Python.parseChildren prt items (depth + 1) (nodes + 1))) :
    SameOutcome (SameParsed rt.utcTimestamp)
      (parseCondition rt (.mapping [(.string operator, operand)]) depth nodes)
      (Python.parseConditionNode prt (.mapping [(.string operator, operand)]) depth nodes) := by
  rw [parseCondition, Python.parseConditionNode]
  obtain ⟨-, hcheck⟩ := (rejectUnknownFields_cases prt [(.string operator, operand)]
    Python.conditionFields "condition" "invalid_condition").resolve_right
      (fun h => h.1 (knownKeys_singleton hoperator))
  simp only [booleanOperator_singleton hoperator, operators_singleton hoperator, hcheck, bind,
    Except.bind]
  by_cases hdepth : maxConditionDepth < depth
  · rw [if_pos hdepth, if_pos (show 32 < depth from hdepth)]
    exact .error
  rw [if_neg hdepth, if_neg (show ¬ 32 < depth from hdepth)]
  by_cases hnodes : maxConditionNodes < nodes + 1
  · rw [if_pos hnodes, if_pos (show 128 < nodes + 1 from hnodes)]
    exact .error
  rw [if_neg hnodes, if_neg (show ¬ 128 < nodes + 1 from hnodes)]
  by_cases hmany : operator = "all" ∨ operator = "any"
  · rw [if_pos hmany, if_pos hmany]
    cases operand with
    | sequence items =>
        have hchildren := hitems items rfl
        dsimp only
        generalize parseChildren rt items (depth + 1) (nodes + 1) = rust at hchildren ⊢
        generalize Python.parseChildren prt items (depth + 1) (nodes + 1) = python
          at hchildren ⊢
        cases hchildren with
        | error => exact .error
        | ok h =>
            rcases hmany with rfl | rfl
            · exact .ok ⟨.all h.1, h.2⟩
            · exact .ok ⟨.any h.1, h.2⟩
    | _ => exact .error
  · rw [if_neg hmany, if_neg hmany]
    obtain rfl : operator = "not" := by
      simp only [List.mem_cons, List.not_mem_nil, or_false] at hoperator
      tauto
    generalize parseCondition rt operand (depth + 1) (nodes + 1) = rust at hoperand ⊢
    generalize Python.parseConditionNode prt operand (depth + 1) (nodes + 1) = python
      at hoperand ⊢
    cases hoperand with
    | error => exact .error
    | ok h => exact .ok ⟨.not h.1, h.2⟩

/-- A condition mapping whose entries are not one boolean operator: leaves, or an error. -/
theorem sameOutcome_notSingleton (hts : prt.utcTimestamp = rt.utcTimestamp) {fields : Fields}
    (hplain : Plain .document (.mapping fields)) {depth nodes : ℕ}
    (hnot : ∀ operator ∈ booleanOperator fields, fields.length ≠ 1) :
    SameOutcome (SameParsed rt.utcTimestamp) (parseCondition rt (.mapping fields) depth nodes)
      (Python.parseConditionNode prt (.mapping fields) depth nodes) := by
  rcases rejectUnknownFields_cases prt fields Python.conditionFields "condition"
    "invalid_condition" with ⟨hknown, hcheck⟩ | ⟨hunknown, e, hcheck⟩
  · rw [parseCondition, Python.parseConditionNode]
    simp only [hcheck, bind, Except.bind]
    by_cases hdepth : maxConditionDepth < depth
    · rw [if_pos hdepth, if_pos (show 32 < depth from hdepth)]
      exact .error
    rw [if_neg hdepth, if_neg (show ¬ 32 < depth from hdepth)]
    by_cases hnodes : maxConditionNodes < nodes + 1
    · rw [if_pos hnodes, if_pos (show 128 < nodes + 1 from hnodes)]
      exact .error
    rw [if_neg hnodes, if_neg (show ¬ 128 < nodes + 1 from hnodes)]
    cases hoperator : booleanOperator fields with
    | none =>
        have hleaves := sameOutcome_leaves hts hplain
          (knownLeaves hknown hplain.distinctKeys hoperator)
        rw [booleanOperator_eq_none hoperator]
        dsimp only
        generalize fields.foldlM (leafField rt) ⟨none, none, none⟩ = rust at hleaves ⊢
        generalize fields.foldlM (Python.leafField prt) [] = python at hleaves ⊢
        cases hleaves with
        | error => exact .error
        | ok h => exact .ok ⟨.leaves h, rfl⟩
    | some operator =>
        -- an operator beside another entry
        obtain ⟨hname, value, hentry⟩ := booleanOperator_eq_some hoperator
        have hlength := hnot operator hoperator
        have hpresent : operator ∈
            ["all", "any", "not"].filter (fun name => (fields.get name).isSome) :=
          List.mem_filter.2 ⟨hname, by rw [Fields.get_of_mem hplain.distinctKeys hentry]; rfl⟩
        rcases fields with _ | ⟨first, _ | ⟨second, rest⟩⟩
        · simp at hentry
        · exact absurd rfl hlength
        · dsimp only
          generalize ["all", "any", "not"].filter _ = operators at hpresent ⊢
          rcases operators with _ | ⟨name, _ | ⟨name', names⟩⟩
          · simp at hpresent
          · exact .error
          · exact .error
  · cases hrust : parseCondition rt (.mapping fields) depth nodes with
    | ok parsed => exact absurd (knownKeys_of_parseCondition hrust) hunknown
    | error e' =>
        rw [Python.parseConditionNode, hcheck]
        exact .error

/-- Induction on a plain condition, as both parsers read it: a mapping with one boolean operator
follows from its operand, or from the items of its operand; everything else stands for itself. -/
theorem Plain.condition_induction {P : Yaml → Prop}
    (notMapping : ∀ value : Yaml, value.asMapping = none → P value)
    (notSingleton : ∀ fields, Plain .document (.mapping fields) →
      (∀ operator ∈ booleanOperator fields, fields.length ≠ 1) → P (.mapping fields))
    (operator : ∀ operator ∈ ["all", "any", "not"], ∀ operand, Plain .document operand →
      P operand → (∀ items, operand = .sequence items → ∀ item ∈ items, P item) →
        P (.mapping [(.string operator, operand)]))
    (value : Yaml) (hplain : Plain .document value) : P value := by
  revert hplain
  refine HpGuardian.condition_induction (P := fun value => Plain .document value → P value)
    (fun value hvalue _ => notMapping value hvalue)
    (fun fields hsingle hplain => notSingleton fields hplain hsingle)
    (fun name hname operand hoperand hitems hplain => ?_) value
  have hnotWindow : name ∉ ["start", "end", "time_window"] := by
    simp only [List.mem_cons, List.not_mem_nil, or_false] at hname ⊢
    rcases hname with rfl | rfl | rfl <;> decide
  have hchild : Plain .document operand := hplain.field hnotWindow (by simp)
  exact operator name hname operand hchild (hoperand hchild) fun items hsequence item hitem =>
    hitems items hsequence item hitem ((hsequence ▸ hchild).items item hitem)

/-- The two parsers read the same condition, after the same number of nodes. -/
theorem sameOutcome_parseConditionNode (hts : prt.utcTimestamp = rt.utcTimestamp) (value : Yaml)
    (hplain : Plain .document value) (depth nodes : ℕ) :
    SameOutcome (SameParsed rt.utcTimestamp) (parseCondition rt value depth nodes)
      (Python.parseConditionNode prt value depth nodes) := by
  revert depth nodes
  refine Plain.condition_induction (P := fun value => ∀ depth nodes,
      SameOutcome (SameParsed rt.utcTimestamp) (parseCondition rt value depth nodes)
        (Python.parseConditionNode prt value depth nodes))
    (fun value hvalue depth nodes => ?_) (fun fields hfields hnot depth nodes => ?_)
    (fun operator hoperator operand _ hoperand hitems depth nodes => ?_) value hplain
  · exact sameOutcome_notMapping hvalue depth nodes
  · exact sameOutcome_notSingleton hts hfields hnot
  · exact sameOutcome_operator hoperator (hoperand _ _)
      (fun items hsequence => sameOutcome_parseChildren (hitems items hsequence) _ _)

end

end HpGuardian

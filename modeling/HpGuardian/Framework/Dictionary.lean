import HpGuardian.Framework.FiniteMap
import Mathlib.Data.List.Nodup

/-!
# Dictionaries in insertion order

A dictionary keeps its entries in the order of their insertion, one for each key.  Setting a key
that is there replaces its value in place, a new key is added at the end, and deleting a key closes
the gap.  A `Dictionary` is the list of its entries with the proof that the keys are distinct, so
that every operation carries the obligation to keep them so.

What can be looked up in a dictionary is a finite map, in which the order is forgotten.
`Dictionary.Represents` relates the two, up to a change of the values, and every operation on
dictionaries is the corresponding one on finite maps: a program over an ordered dictionary and a
program over a sorted map can so be compared operation by operation, as long as neither looks at
the order.

Where the order does matter, as in a text that is written from the entries, it is that of
`ofEntries`: building a dictionary from entries keeps their order where the keys are distinct
(`entries_ofEntries`, `ofEntries_entries`).  In the map, the entries are inserted one after the
other (`represents_ofEntries`).
-/

namespace Framework

/-- A dictionary: its entries in order, with distinct keys. There is no way to build one in which a
key occurs twice. -/
@[ext]
structure Dictionary (κ ν : Type*) where
  entries : List (κ × ν)
  distinct : (entries.map Prod.fst).Nodup

namespace Dictionary

variable {κ ν : Type*} [DecidableEq κ]

/-- The dictionary without entries. -/
def empty (κ ν : Type*) : Dictionary κ ν := ⟨[], List.nodup_nil⟩

/-- The keys, in order. -/
def keys (d : Dictionary κ ν) : List κ := d.entries.map Prod.fst

/-- `d.get(key)`. -/
def get (d : Dictionary κ ν) (key : κ) : Option ν := d.entries.lookup key

/-- `len(d)`. -/
def length (d : Dictionary κ ν) : ℕ := d.entries.length

/-- `d[key] = value`. -/
def set (d : Dictionary κ ν) (key : κ) (value : ν) : Dictionary κ ν :=
  if h : key ∈ d.keys then
    { entries := d.entries.map (fun entry => if entry.1 = key then (key, value) else entry)
      distinct := by
        have hkeys : (d.entries.map
            (fun entry => if entry.1 = key then (key, value) else entry)).map Prod.fst =
              d.entries.map Prod.fst := by
          rw [List.map_map]
          refine List.map_congr_left fun entry _ => ?_
          simp only [Function.comp_apply]
          split_ifs with hkey
          · exact hkey.symm
          · rfl
        rw [hkeys]
        exact d.distinct }
  else
    { entries := d.entries ++ [(key, value)]
      distinct := by
        rw [List.map_append]
        refine List.nodup_append.2 ⟨d.distinct, List.nodup_singleton _, fun other hother b hb => ?_⟩
        rintro rfl
        obtain rfl : other = key := List.mem_singleton.1 hb
        exact h hother }

/-- `del d[key]`. -/
def delete (d : Dictionary κ ν) (key : κ) : Dictionary κ ν where
  entries := d.entries.filter (fun entry => entry.1 ≠ key)
  distinct := d.distinct.sublist (List.filter_sublist.map Prod.fst)

/-! ## Lookups

Each operation in terms of what can be looked up afterwards. -/

theorem get_eq_some_iff {d : Dictionary κ ν} {key : κ} {value : ν} :
    d.get key = some value ↔ (key, value) ∈ d.entries := by
  obtain ⟨entries, distinct⟩ := d
  simp only [get]
  induction entries with
  | nil => simp
  | cons entry entries ih =>
      obtain ⟨key', value'⟩ := entry
      obtain ⟨hfresh, hdistinct⟩ := List.nodup_cons.1 distinct
      rw [List.lookup_cons, List.mem_cons]
      by_cases hkey : key = key'
      · subst hkey
        have hnot : (key, value) ∉ entries := fun hmem =>
          hfresh (List.mem_map.2 ⟨(key, value), hmem, rfl⟩)
        simp [hnot, eq_comm]
      · simp [beq_false_of_ne hkey, hkey, ih hdistinct]

theorem mem_keys {d : Dictionary κ ν} {key : κ} :
    key ∈ d.keys ↔ ∃ value, d.get key = some value := by
  simp only [keys, List.mem_map, get_eq_some_iff, Prod.exists, exists_and_right, exists_eq_right]

@[simp] theorem get_empty (key : κ) : (empty κ ν).get key = none := rfl

theorem get_set (d : Dictionary κ ν) (key : κ) (value : ν) (key' : κ) :
    (d.set key value).get key' = if key' = key then some value else d.get key' := by
  ext other
  rw [get_eq_some_iff]
  unfold set
  split_ifs with hthere hkey hkey
  · subst hkey
    obtain ⟨old, hold⟩ := mem_keys.1 hthere
    rw [List.mem_map, Option.some.injEq]
    constructor
    · rintro ⟨entry, -, hentry⟩
      split_ifs at hentry with hsame
      · exact (Prod.mk.inj hentry).2
      · exact absurd (congrArg Prod.fst hentry) hsame
    · rintro rfl
      exact ⟨(key', old), get_eq_some_iff.1 hold, if_pos rfl⟩
  · rw [get_eq_some_iff, List.mem_map]
    constructor
    · rintro ⟨entry, hentry, heq⟩
      split_ifs at heq with hsame
      · exact absurd (congrArg Prod.fst heq).symm hkey
      · exact heq ▸ hentry
    · intro hmem
      exact ⟨(key', other), hmem, if_neg hkey⟩
  · subst hkey
    rw [List.mem_append, List.mem_singleton, Option.some.injEq]
    constructor
    · rintro (hmem | heq)
      · exact absurd (List.mem_map.2 ⟨_, hmem, rfl⟩) hthere
      · exact (Prod.mk.inj heq).2.symm
    · rintro rfl
      exact .inr rfl
  · rw [get_eq_some_iff, List.mem_append, List.mem_singleton]
    refine or_iff_left fun heq => hkey (Prod.mk.inj heq).1

theorem get_delete (d : Dictionary κ ν) (key key' : κ) :
    (d.delete key).get key' = if key' = key then none else d.get key' := by
  ext other
  rw [get_eq_some_iff, delete, List.mem_filter]
  split_ifs with hkey
  · simp [hkey]
  · simp [hkey, get_eq_some_iff]

/-- Deleting keys one after the other. -/
theorem get_foldl_delete (d : Dictionary κ ν) (stale : List κ) (key : κ) :
    (stale.foldl delete d).get key = if key ∈ stale then none else d.get key := by
  induction stale generalizing d with
  | nil => simp
  | cons first stale ih =>
      rw [List.foldl_cons, ih, get_delete]
      by_cases hfirst : key = first <;> by_cases hstale : key ∈ stale <;> simp [hfirst, hstale]

/-! ## Dictionaries from entries

A dictionary literal, or a document read entry by entry, sets its keys one after the other; a key
that comes twice keeps its first place and its last value. -/

/-- The dictionary that entries are set in, one after the other. -/
def ofEntries (entries : List (κ × ν)) : Dictionary κ ν :=
  entries.foldl (fun d entry => d.set entry.1 entry.2) (empty κ ν)

theorem ofEntries_append (entries : List (κ × ν)) (entry : κ × ν) :
    ofEntries (entries ++ [entry]) = (ofEntries entries).set entry.1 entry.2 := by
  rw [ofEntries, List.foldl_append]
  rfl

/-- Distinct keys stay where they are. -/
theorem entries_ofEntries {entries : List (κ × ν)} (h : (entries.map Prod.fst).Nodup) :
    (ofEntries entries).entries = entries := by
  induction entries using List.reverseRecOn with
  | nil => rfl
  | append_singleton entries entry ih =>
      rw [List.map_append, List.nodup_append] at h
      obtain ⟨hdistinct, -, hfresh⟩ := h
      have hentries := ih hdistinct
      have hnew : entry.1 ∉ (ofEntries entries).keys := by
        rw [keys, hentries]
        exact fun hmem => hfresh _ hmem _ (by simp) rfl
      rw [ofEntries_append, set, dif_neg hnew]
      simp only [hentries]

/-- A dictionary is rebuilt from its entries. -/
theorem ofEntries_entries (d : Dictionary κ ν) : ofEntries d.entries = d :=
  Dictionary.ext (entries_ofEntries d.distinct)

/-! ## Finite maps

The order forgotten: what a dictionary holds is a finite map, and it does to the map what is done
to it. -/

section

variable {μ : Type*} {f : μ → ν} {d : Dictionary κ ν} {m : Finmap (fun _ : κ => μ)}

/-- The dictionary holds the bindings of the map, with values changed by `f`. The relation says
nothing about the order of the entries, so one map is represented by many dictionaries. -/
def Represents (f : μ → ν) (d : Dictionary κ ν) (m : Finmap (fun _ : κ => μ)) : Prop :=
  ∀ key, d.get key = (m.lookup key).map f

theorem represents_empty (f : μ → ν) : Represents f (empty κ ν) ∅ := fun key => by simp

theorem Represents.mem_keys (h : Represents f d m) (key : κ) : key ∈ d.keys ↔ key ∈ m := by
  rw [Dictionary.mem_keys, h key, ← Finmap.lookup_isSome, Option.isSome_iff_exists]
  simp

theorem Represents.length (h : Represents f d m) : d.length = m.size := by
  have hkeys : d.keys.toFinset = m.keys := by
    ext key
    rw [List.mem_toFinset, h.mem_keys, Finmap.mem_keys]
  have hcard : d.keys.toFinset.card = d.keys.length := List.toFinset_card_of_nodup d.distinct
  rw [Finmap.size, ← hkeys, hcard, keys, List.length_map]
  rfl

theorem Represents.set (h : Represents f d m) (key : κ) (value : μ) :
    Represents f (d.set key (f value)) (m.insert key value) := by
  intro key'
  rw [get_set]
  split_ifs with hkey
  · rw [hkey, Finmap.lookup_insert, Option.map_some]
  · rw [Finmap.lookup_insert_of_ne _ hkey, h key']

/-- Entries that are set in a dictionary are entries that are inserted into a map. -/
theorem represents_ofEntries (entries : List (κ × μ)) :
    Represents id (ofEntries entries)
      (entries.foldl (fun m entry => m.insert entry.1 entry.2)
        (∅ : Finmap (fun _ : κ => μ))) := by
  induction entries using List.reverseRecOn with
  | nil => exact represents_empty id
  | append_singleton entries entry ih =>
      rw [ofEntries_append, List.foldl_append]
      exact ih.set entry.1 entry.2

/-- Deleting the keys whose bindings fail a test. -/
theorem Represents.retain (h : Represents f d m) {p : κ → μ → Bool} {stale : List κ}
    (hstale : ∀ key, key ∈ stale ↔ ∃ value, m.lookup key = some value ∧ p key value = false) :
    Represents f (stale.foldl delete d) (m.retain p) := by
  intro key
  rw [get_foldl_delete, Finmap.lookup_retain]
  cases hvalue : m.lookup key with
  | none => simp [h key, hvalue]
  | some value => cases hpass : p key value <;> simp [hstale, h key, hvalue, hpass]

end

end Dictionary

end Framework

import Mathlib.Data.Finmap

/-!
# Finite maps with values of one type

Mathlib's `Finmap` carries a dependent value type.  The ordered maps of an imperative program have
one value type, a size, a pass over all entries and a filtering pass; those four are developed here
on `Finmap (fun _ : κ => ν)`, each with the law that turns it into a statement about `lookup`.

The order of the keys plays no part.  A pass that tests every entry (`everyEntry`) and a pass that
drops some (`retain`) give the same result in any order, so a sorted map and a hash map are the
same thing here, and the proofs never choose a representative of the map.

The two facts at the end connect a filtering pass with the size it leaves behind.  A pass that
drops nothing leaves the map as it was, and a pass after which the map is as large as before has
dropped nothing (`passes_of_size_le`): a program that frees places by filtering and then looks at
the size has so learnt something about every entry.
-/

namespace Finmap

variable {κ ν : Type*}

/-! ## Number of entries

How an insertion changes the size, by whether the key was there. -/

/-- The number of bindings. -/
def size (m : Finmap (fun _ : κ => ν)) : ℕ := m.keys.card

@[simp] theorem size_empty : size (∅ : Finmap (fun _ : κ => ν)) = 0 := by
  simp [size]

variable [DecidableEq κ]

theorem keys_insert (k : κ) (v : ν) (m : Finmap (fun _ : κ => ν)) :
    (m.insert k v).keys = Insert.insert k m.keys := by
  ext a
  simp [mem_keys, mem_insert]

theorem size_insert_of_mem {k : κ} {m : Finmap (fun _ : κ => ν)} (h : k ∈ m) (v : ν) :
    (m.insert k v).size = m.size := by
  rw [size, keys_insert, Finset.insert_eq_self.2 (mem_keys.2 h), size]

theorem size_insert_of_notMem {k : κ} {m : Finmap (fun _ : κ => ν)} (h : k ∉ m) (v : ν) :
    (m.insert k v).size = m.size + 1 := by
  rw [size, keys_insert, Finset.card_insert_of_notMem (mt mem_keys.1 h), size]

/-! ## A pass over all entries -/

/-- Whether every binding passes the test, in whatever order they are visited. -/
def everyEntry (p : κ → ν → Bool) (m : Finmap (fun _ : κ => ν)) : Bool :=
  decide (∀ e ∈ m.entries, p e.1 e.2 = true)

theorem mem_entries_iff_lookup {m : Finmap (fun _ : κ => ν)} {e : Sigma (fun _ : κ => ν)} :
    e ∈ m.entries ↔ m.lookup e.1 = some e.2 := by
  rw [lookup_eq_some_iff]

theorem everyEntry_iff {p : κ → ν → Bool} {m : Finmap (fun _ : κ => ν)} :
    m.everyEntry p = true ↔ ∀ k v, m.lookup k = some v → p k v = true := by
  simp only [everyEntry, decide_eq_true_eq]
  constructor
  · intro h k v hkv
    exact h ⟨k, v⟩ (mem_entries_iff_lookup.2 hkv)
  · intro h e he
    exact h e.1 e.2 (mem_entries_iff_lookup.1 he)

/-! ## A filtering pass

`retain` keeps the bindings that pass a test.  A program calls it to make room, and what it needs
to know afterwards is which bindings are left and whether there is room. -/

/-- The bindings that pass the test. -/
def retain (p : κ → ν → Bool) (m : Finmap (fun _ : κ => ν)) : Finmap (fun _ : κ => ν) where
  entries := m.entries.filter (fun e => p e.1 e.2 = true)
  nodupKeys := by
    rw [← Multiset.nodup_keys]
    exact Multiset.nodup_of_le (Multiset.map_le_map (Multiset.filter_le _ _))
      (Multiset.nodup_keys.2 m.nodupKeys)

theorem lookup_retain (p : κ → ν → Bool) (m : Finmap (fun _ : κ => ν)) (k : κ) :
    (m.retain p).lookup k = (m.lookup k).filter (p k) := by
  ext v
  rw [lookup_eq_some_iff, Option.filter_eq_some_iff, lookup_eq_some_iff]
  simp [retain]

theorem keys_retain_subset (p : κ → ν → Bool) (m : Finmap (fun _ : κ => ν)) :
    (m.retain p).keys ⊆ m.keys := by
  intro k hk
  rw [mem_keys, ← lookup_isSome] at hk ⊢
  rw [lookup_retain] at hk
  exact Option.isSome_of_isSome_filter _ _ hk

theorem size_retain_le (p : κ → ν → Bool) (m : Finmap (fun _ : κ => ν)) :
    (m.retain p).size ≤ m.size :=
  Finset.card_le_card (keys_retain_subset p m)

/-- A pass that drops no binding keeps the map. -/
theorem retain_eq_self {p : κ → ν → Bool} {m : Finmap (fun _ : κ => ν)}
    (h : ∀ k v, m.lookup k = some v → p k v = true) : m.retain p = m := by
  refine ext_lookup fun k => ?_
  rw [lookup_retain]
  cases hk : m.lookup k with
  | none => rfl
  | some v => rw [Option.filter_some, if_pos (h k v hk)]

/-- A pass that leaves as many bindings as before has dropped none: every binding of the map passes
the test. -/
theorem passes_of_size_le {p : κ → ν → Bool} {m : Finmap (fun _ : κ => ν)}
    (h : m.size ≤ (m.retain p).size) {k : κ} {v : ν} (hk : m.lookup k = some v) :
    p k v = true := by
  have hkeys : (m.retain p).keys = m.keys := Finset.eq_of_subset_of_card_le
    (keys_retain_subset p m) h
  have hmem : k ∈ (m.retain p).keys := by
    rw [hkeys]
    exact mem_keys.2 (mem_of_lookup_eq_some hk)
  rw [mem_keys, ← lookup_isSome, lookup_retain, hk] at hmem
  by_contra hp
  simp [Option.filter_some, hp] at hmem

end Finmap

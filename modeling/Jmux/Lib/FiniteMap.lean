/-
  Jmux.Lib.FiniteMap — the hash-map operations Mathlib's `AList` does not have.

  `AList` carries "no key twice" as a field, so a map with a repeated key cannot
  be built.  This file adds the updates that a program makes in place
  (`get_mut`, `retain`, a loop over `values_mut`), each with the one equation
  that says what a lookup finds afterwards.
-/
import Mathlib.Data.List.AList

namespace AList

variable {κ ν : Type*} [DecidableEq κ]

/-! ## §1. Updating one value in place. -/

/-- Apply `f` to the value at `k`; nothing happens when `k` is absent. -/
def modify (k : κ) (f : ν → ν) (m : AList fun _ : κ => ν) : AList fun _ : κ => ν :=
  match m.lookup k with
  | some v => m.insert k (f v)
  | none   => m

theorem lookup_insert_eq_ite (k k' : κ) (v : ν) (m : AList fun _ : κ => ν) :
    (m.insert k v).lookup k' = if k' = k then some v else m.lookup k' := by
  by_cases h : k' = k
  · subst h
    rw [if_pos rfl, lookup_insert]
  · rw [if_neg h, lookup_insert_ne h]

theorem lookup_erase_eq_ite (k k' : κ) (m : AList fun _ : κ => ν) :
    (m.erase k).lookup k' = if k' = k then none else m.lookup k' := by
  by_cases h : k' = k
  · subst h
    rw [if_pos rfl, lookup_erase]
  · rw [if_neg h, lookup_erase_ne h]

/-- A new entry that is taken out again. -/
theorem erase_insert_of_notMem {k : κ} {m : AList fun _ : κ => ν} (h : k ∉ m) (v : ν) :
    (m.insert k v).erase k = m := by
  apply AList.ext
  show List.kerase k (m.insert k v).entries = m.entries
  rw [entries_insert_of_notMem h]
  exact List.kerase_cons_eq rfl

theorem lookup_modify (k k' : κ) (f : ν → ν) (m : AList fun _ : κ => ν) :
    (m.modify k f).lookup k' = if k' = k then (m.lookup k).map f else m.lookup k' := by
  unfold modify
  cases hk : m.lookup k with
  | none =>
      by_cases h : k' = k
      · rw [if_pos h, h, hk]
        rfl
      · rw [if_neg h]
  | some v => rw [lookup_insert_eq_ite]; rfl

/-! ## §2. Updates of the whole map. -/

/-- Keep the entries that satisfy `p` (`HashMap::retain`). -/
def retain (p : κ → ν → Bool) (m : AList fun _ : κ => ν) : AList fun _ : κ => ν where
  entries := m.entries.filter fun e => p e.1 e.2
  nodupKeys := m.nodupKeys.sublist List.filter_sublist

/-- Apply `f` to every value (a loop over `values_mut`). -/
def mapVals (f : κ → ν → ν) (m : AList fun _ : κ => ν) : AList fun _ : κ => ν where
  entries := m.entries.map fun e => ⟨e.1, f e.1 e.2⟩
  nodupKeys := by
    have hkeys : (m.entries.map fun e => (⟨e.1, f e.1 e.2⟩ : Sigma fun _ : κ => ν)).keys
        = m.entries.keys := by
      simp [List.keys, Function.comp_def]
    show List.Nodup (List.keys _)
    rw [hkeys]
    exact m.keys_nodup

theorem lookup_retain (p : κ → ν → Bool) (k : κ) (m : AList fun _ : κ => ν) :
    (m.retain p).lookup k = (m.lookup k).filter (p k) := by
  obtain ⟨entries, hnd⟩ := m
  show List.dlookup k (entries.filter fun e => p e.1 e.2)
      = (List.dlookup k entries).filter (p k)
  induction entries with
  | nil => rfl
  | cons e es ih =>
      obtain ⟨k', v⟩ := e
      have hnd' := List.nodupKeys_cons.mp hnd
      by_cases hk : k = k'
      · subst hk
        rw [List.dlookup_cons_eq]
        by_cases hp : p k v
        · rw [List.filter_cons_of_pos (by exact hp), List.dlookup_cons_eq]
          simp [Option.filter, hp]
        · rw [List.filter_cons_of_neg (by simpa using hp), ih hnd'.2,
              List.dlookup_eq_none.mpr hnd'.1]
          simp [Option.filter, hp]
      · rw [List.dlookup_cons_ne _ _ (by exact hk)]
        by_cases hp : p k' v
        · rw [List.filter_cons_of_pos (by exact hp), List.dlookup_cons_ne _ _ (by exact hk),
              ih hnd'.2]
        · rw [List.filter_cons_of_neg (by simpa using hp), ih hnd'.2]

theorem lookup_mapVals (f : κ → ν → ν) (k : κ) (m : AList fun _ : κ => ν) :
    (m.mapVals f).lookup k = (m.lookup k).map (f k) := by
  obtain ⟨entries, hnd⟩ := m
  show List.dlookup k (entries.map fun e => (⟨e.1, f e.1 e.2⟩ : Sigma fun _ : κ => ν))
      = (List.dlookup k entries).map (f k)
  induction entries with
  | nil => rfl
  | cons e es ih =>
      obtain ⟨k', v⟩ := e
      have hnd' := List.nodupKeys_cons.mp hnd
      by_cases hk : k = k'
      · subst hk
        rw [List.map_cons, List.dlookup_cons_eq, List.dlookup_cons_eq]
        rfl
      · rw [List.map_cons, List.dlookup_cons_ne _ _ (by exact hk),
            List.dlookup_cons_ne _ _ (by exact hk), ih hnd'.2]

/-! ## §3. Reading the whole map. -/

/-- The values, in the map's iteration order. -/
def vals (m : AList fun _ : κ => ν) : List ν := m.entries.map (·.2)

theorem mem_entries_iff_lookup (m : AList fun _ : κ => ν) (k : κ) (v : ν) :
    (⟨k, v⟩ : Sigma fun _ : κ => ν) ∈ m.entries ↔ m.lookup k = some v :=
  (List.mem_dlookup_iff m.nodupKeys).symm

theorem mem_of_lookup {m : AList fun _ : κ => ν} {k : κ} {v : ν} (h : m.lookup k = some v) :
    k ∈ m := by
  rw [← lookup_isSome, h]
  rfl

end AList

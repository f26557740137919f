import SessionGateway.Table

/-!
# What a table holds

The entries of a table are its keys with their values. A value that was put is found, and a filter
keeps exactly what passes it.
-/

namespace SessionGateway.Table

universe u v

variable {κ : Type u} {ν : Type v} [DecidableEq κ]

theorem mem_of_findPair {k : κ} {v : ν} {l : List (κ × ν)} (h : findPair k l = some v) :
    (k, v) ∈ l := by
  induction l with
  | nil => cases h
  | cons p rest ih =>
    obtain ⟨a, b⟩ := p
    by_cases hk : a = k
    · subst hk
      rw [findPair, if_pos rfl, Option.some.injEq] at h
      rw [h]
      exact List.mem_cons_self
    · rw [findPair, if_neg hk] at h
      exact List.mem_cons_of_mem _ (ih h)

theorem findPair_of_mem {k : κ} {v : ν} {l : List (κ × ν)} (hl : (l.map Prod.fst).Nodup)
    (h : (k, v) ∈ l) : findPair k l = some v := by
  induction l with
  | nil => cases h
  | cons p rest ih =>
    obtain ⟨a, b⟩ := p
    rw [List.map_cons, List.nodup_cons] at hl
    rcases List.mem_cons.mp h with heq | hrest
    · cases heq
      rw [findPair, if_pos rfl]
    · have hne : a ≠ k := by
        rintro rfl
        exact hl.1 (List.mem_map.mpr ⟨(a, v), hrest, rfl⟩)
      rw [findPair, if_neg hne]
      exact ih hl.2 hrest

theorem mem_entries_iff (t : Table κ ν) {k : κ} {v : ν} :
    (k, v) ∈ t.entries ↔ t.get? k = some v :=
  ⟨findPair_of_mem t.distinct, mem_of_findPair⟩

theorem mem_values_iff (t : Table κ ν) {v : ν} : v ∈ t.values ↔ ∃ k, t.get? k = some v := by
  simp only [values, List.mem_map, Prod.exists, exists_eq_right, mem_entries_iff]

theorem get?_filter (t : Table κ ν) (p : κ → ν → Bool) (k : κ) :
    (t.filter p).get? k = (t.get? k).filter (p k) := by
  apply Option.ext
  intro v
  rw [← mem_entries_iff, Option.filter_eq_some_iff, ← mem_entries_iff]
  exact List.mem_filter

omit [DecidableEq κ] in
theorem nodup_entries (t : Table κ ν) : t.entries.Nodup :=
  (List.pairwise_map.mp t.distinct).imp fun h e => h (congrArg Prod.fst e)

/-- Two tables that read alike hold the same entries. -/
theorem perm_entries {t t' : Table κ ν} (h : ∀ k, t.get? k = t'.get? k) :
    t.entries.Perm t'.entries := by
  rw [List.perm_ext_iff_of_nodup t.nodup_entries t'.nodup_entries]
  rintro ⟨k, v⟩
  rw [mem_entries_iff, mem_entries_iff, h]

/-! ### Sizes -/

theorem contains_iff_mem_keys (t : Table κ ν) (k : κ) : t.contains k = true ↔ k ∈ t.keys := by
  have h := t.get?_eq_none_iff k
  rw [contains]
  cases hk : t.get? k with
  | none => simpa using h.mp hk
  | some v =>
    rw [hk] at h
    simpa using h

/-- The keys can be told from the values if each value tells its own. -/
theorem map_values_eq_keys {t : Table κ ν} {f : ν → κ} (h : ∀ k v, t.get? k = some v → f v = k) :
    t.values.map f = t.keys := by
  rw [values, keys, List.map_map]
  exact List.map_congr_left fun e he => h e.1 e.2 (t.mem_entries_iff.mp he)

omit [DecidableEq κ] in
theorem size_eq_length_keys (t : Table κ ν) : t.size = t.keys.length := by
  rw [size, keys, List.length_map]

theorem keys_erase (t : Table κ ν) (k : κ) : (t.erase k).keys = t.keys.filter (· ≠ k) := by
  rw [keys, keys, List.filter_map]
  rfl

theorem size_insert (t : Table κ ν) (k : κ) (v : ν) :
    (t.insert k v).size = t.size + if t.contains k then 0 else 1 := by
  have hkeys : (t.insert k v).keys = if k ∈ t.keys then t.keys else t.keys ++ [k] :=
    keys_putPair k v t.entries
  rw [size_eq_length_keys, size_eq_length_keys, hkeys]
  by_cases hk : k ∈ t.keys
  · rw [if_pos hk, if_pos ((contains_iff_mem_keys t k).mpr hk), Nat.add_zero]
  · rw [if_neg hk, if_neg fun h => hk ((contains_iff_mem_keys t k).mp h), List.length_append]
    rfl

theorem size_erase (t : Table κ ν) (k : κ) :
    (t.erase k).size + (if t.contains k then 1 else 0) = t.size := by
  have hsplit := List.length_eq_countP_add_countP (· ≠ k) (l := t.keys)
  have hcount : t.keys.count k = if k ∈ t.keys then 1 else 0 := t.distinct.count
  have hrest : t.keys.countP (fun k' => ¬ decide (k' ≠ k) = true) = t.keys.count k := by
    apply List.countP_congr
    intro k' _
    simp
  rw [size_eq_length_keys, size_eq_length_keys, keys_erase, ← List.countP_eq_length_filter]
  rw [hrest, hcount] at hsplit
  by_cases hk : k ∈ t.keys
  · rw [if_pos hk] at hsplit
    rw [if_pos ((contains_iff_mem_keys t k).mpr hk), hsplit]
  · rw [if_neg hk] at hsplit
    rw [if_neg fun h => hk ((contains_iff_mem_keys t k).mp h), hsplit]

/-- How many keys of a table another lacks. -/
def lost (t t' : Table κ ν) : Nat := t.keys.countP fun k => !t'.contains k

end SessionGateway.Table

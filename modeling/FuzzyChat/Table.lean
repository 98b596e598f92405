import Mathlib

/-! Finite maps, with the operations of a hash map that the association lists lack. -/

abbrev Table (K V : Type) := AList fun _ : K => V

namespace AList
variable {K V : Type} [DecidableEq K]

def retain (p : K → V → Bool) (t : Table K V) : Table K V :=
  ⟨t.entries.filter fun e => p e.1 e.2, t.nodupKeys.sublist List.filter_sublist⟩

/-- Change the value at a key in place; a missing key stays missing. -/
def modify (k : K) (f : V → V) (t : Table K V) : Table K V :=
  match t.lookup k with
  | some v => t.insert k (f v)
  | none => t

theorem mem_entries_iff {t : Table K V} {k : K} {v : V} :
    (⟨k, v⟩ : Sigma fun _ : K => V) ∈ t.entries ↔ t.lookup k = some v := mem_lookup_iff.symm

theorem lookup_retain (p : K → V → Bool) (t : Table K V) (k : K) :
    (t.retain p).lookup k = (t.lookup k).filter (p k) := by
  ext v
  rw [← Option.mem_def, mem_lookup_iff, Option.filter_eq_some_iff, ← mem_entries_iff]
  exact List.mem_filter

@[simp] theorem lookup_retain_eq_some {p : K → V → Bool} {t : Table K V} {k : K} {v : V} :
    (t.retain p).lookup k = some v ↔ t.lookup k = some v ∧ p k v = true := by
  rw [lookup_retain, Option.filter_eq_some_iff]

theorem lookup_insert_eq_ite (t : Table K V) (k k' : K) (v : V) :
    (t.insert k v).lookup k' = if k' = k then some v else t.lookup k' := by
  split_ifs with h
  · rw [h, lookup_insert]
  · rw [lookup_insert_ne h]

theorem lookup_insert_eq_some {t : Table K V} {k k' : K} {v v' : V} :
    (t.insert k v).lookup k' = some v' ↔
      k' = k ∧ v = v' ∨ k' ≠ k ∧ t.lookup k' = some v' := by
  rw [lookup_insert_eq_ite]
  split_ifs with h <;> simp [h]

theorem lookup_erase_eq_ite (t : Table K V) (k k' : K) :
    (t.erase k).lookup k' = if k' = k then none else t.lookup k' := by
  split_ifs with h
  · rw [h, lookup_erase]
  · rw [lookup_erase_ne h]

@[simp] theorem lookup_erase_eq_some {t : Table K V} {k k' : K} {v : V} :
    (t.erase k).lookup k' = some v ↔ k' ≠ k ∧ t.lookup k' = some v := by
  rw [lookup_erase_eq_ite]
  split_ifs with h <;> simp [h]

theorem lookup_modify (t : Table K V) (k k' : K) (f : V → V) :
    (t.modify k f).lookup k' = if k' = k then (t.lookup k).map f else t.lookup k' := by
  unfold modify
  split
  · rename_i v hv
    rw [lookup_insert_eq_ite, hv, Option.map_some]
  · rename_i hv
    split_ifs with h
    · rw [h, hv, Option.map_none]
    · rfl

theorem lookup_modify_eq_some {t : Table K V} {k k' : K} {f : V → V} {v' : V} :
    (t.modify k f).lookup k' = some v' ↔
      (k' = k ∧ ∃ v, t.lookup k = some v ∧ f v = v') ∨ k' ≠ k ∧ t.lookup k' = some v' := by
  rw [lookup_modify]
  split_ifs with h <;> simp [h]

theorem nodup_filterMap {β : Type} {t : Table K V} {f : (Sigma fun _ : K => V) → Option β}
    {g : β → K} (h : ∀ k v b, t.lookup k = some v → f ⟨k, v⟩ = some b → g b = k) :
    ((t.entries.filterMap f).map g).Nodup := by
  rw [List.map_filterMap]
  apply List.pairwise_filterMap.mpr
  have hkeys : t.entries.Pairwise fun e e' => e.1 ≠ e'.1 :=
    List.nodupKeys_iff_pairwise.mp t.nodupKeys
  refine hkeys.imp_of_mem fun {e e'} he he' hne b hb b' hb' => ?_
  obtain ⟨x, hx, rfl⟩ := Option.map_eq_some_iff.mp hb
  obtain ⟨x', hx', rfl⟩ := Option.map_eq_some_iff.mp hb'
  rw [h e.1 e.2 x (mem_entries_iff.mp he) hx, h e'.1 e'.2 x' (mem_entries_iff.mp he') hx']
  exact hne

def count (t : Table K V) : Nat := t.entries.length

theorem count_le_card {t : Table K V} {s : Finset K}
    (h : ∀ k v, t.lookup k = some v → k ∈ s) : t.count ≤ s.card := by
  have hcard : t.count = t.keys.toFinset.card := by
    rw [List.toFinset_card_of_nodup t.keys_nodup]
    exact (List.length_map _).symm
  rw [hcard]
  refine Finset.card_le_card fun k hk => ?_
  obtain ⟨v, hv⟩ := Option.isSome_iff_exists.mp
    (lookup_isSome.mpr (mem_keys.mpr (List.mem_toFinset.mp hk)))
  exact h k v hv

end AList

import Mathlib.Data.List.Infix
import Mathlib.Data.List.Nodup
import ActionScript.Table

/-! # Tables and their entries

Lookup in a table agrees with membership among its entries, its keys and its values. -/

namespace ActionScript.Table

variable {κ ν : Type} [DecidableEq κ]

theorem find?_eq_some_iff {t : Table κ ν} {k : κ} {v : ν} :
    t.find? k = some v ↔ (k, v) ∈ t.entries := by
  obtain ⟨entries, nodup⟩ := t
  show entries.lookup k = some v ↔ (k, v) ∈ entries
  induction entries with
  | nil => simp
  | cons e entries ih =>
    obtain ⟨a, b⟩ := e
    have hnodup := List.nodup_cons.mp nodup
    by_cases h : k = a
    · subst h
      have habsent : ∀ c, (k, c) ∉ entries := fun c hc =>
        hnodup.1 (List.mem_map.mpr ⟨_, hc, rfl⟩)
      simp [habsent, eq_comm]
    · rw [List.lookup_cons, beq_false_of_ne h]
      simp [ih hnodup.2, h]

theorem erase_eq_eraseWhere (t : Table κ ν) (k : κ) :
    t.erase k = t.eraseWhere fun k' => decide (k' = k) := by
  simp only [erase, eraseWhere, ne_eq, decide_not]

/-- A new entry leaves what the table holds. -/
theorem find?_insert_of_some {t : Table κ ν} {k k' : κ} {v : ν} (hnone : t.find? k = none)
    (h : t.find? k' = some v) (w : ν) : (t.insert k w).find? k' = some v := by
  rw [find?_insert, if_neg]
  · exact h
  · rintro rfl
    rw [hnone] at h
    cases h

theorem keys_prefix_insert (t : Table κ ν) (k : κ) (v : ν) : t.keys <+: (t.insert k v).keys := by
  by_cases h : k ∈ t.keys
  · rw [keys_insert_of_mem h]
  · rw [keys_insert_of_not_mem h]
    exact List.prefix_append _ _

theorem mem_values_iff {t : Table κ ν} {v : ν} : v ∈ t.values ↔ ∃ k, t.find? k = some v := by
  simp only [values, List.mem_map, find?_eq_some_iff]
  constructor
  · rintro ⟨⟨k, v⟩, h, rfl⟩
    exact ⟨k, h⟩
  · rintro ⟨k, h⟩
    exact ⟨_, h, rfl⟩

/-! ## Changes that cancel -/

omit [DecidableEq κ] in
theorem eq_of_entries {t u : Table κ ν} (h : t.entries = u.entries) : t = u := by
  cases t
  cases u
  cases h
  rfl

omit [DecidableEq κ] in
theorem eraseWhere_eq_self {t : Table κ ν} {p : κ → Bool} (h : ∀ k ∈ t.keys, p k = false) :
    t.eraseWhere p = t := by
  refine eq_of_entries (List.filter_eq_self.mpr fun e he => ?_)
  rw [h e.1 (List.mem_map_of_mem he)]
  rfl

theorem modify_modify (t : Table κ ν) (k : κ) (f g : ν → ν) :
    (t.modify k f).modify k g = t.modify k (g ∘ f) := by
  refine eq_of_entries ?_
  show modifyEntries k g (modifyEntries k f t.entries) = modifyEntries k (g ∘ f) t.entries
  rw [modifyEntries, modifyEntries, modifyEntries, List.map_map]
  refine List.map_congr_left fun e _ => ?_
  dsimp only [Function.comp]
  split <;> simp [*]

theorem modify_eq_self {t : Table κ ν} {k : κ} {v : ν} {f : ν → ν} (hv : t.find? k = some v)
    (hf : f v = v) : t.modify k f = t := by
  refine eq_of_entries ?_
  show modifyEntries k f t.entries = t.entries
  refine (List.map_congr_left fun e he => ?_).trans (List.map_id _)
  obtain ⟨k', w⟩ := e
  dsimp only
  split
  · rename_i hk
    subst hk
    rw [find?_eq_some_iff.mpr he] at hv
    cases hv
    rw [hf]
    rfl
  · rfl

theorem erase_modify (t : Table κ ν) (k k' : κ) (f : ν → ν) :
    (t.modify k f).erase k' = (t.erase k').modify k f := by
  refine eq_of_entries ?_
  show (modifyEntries k f t.entries).filter _ = modifyEntries k f (t.entries.filter _)
  rw [modifyEntries, modifyEntries, List.filter_map]
  congr 1
  refine List.filter_congr fun e _ => ?_
  dsimp only [Function.comp]
  split <;> rfl

/-- What was added at the end is taken away again. -/
theorem erase_insert {t : Table κ ν} {k : κ} (hk : k ∉ t.keys) (v : ν) :
    (t.insert k v).erase k = t := by
  rw [insert, dif_neg hk]
  refine eq_of_entries ?_
  show (t.entries ++ [(k, v)]).filter _ = t.entries
  rw [List.filter_append, List.filter_eq_self.mpr fun e he => ?_]
  · simp
  · have hne : e.1 ≠ k := fun h => hk (h ▸ List.mem_map_of_mem he)
    simpa using hne

end ActionScript.Table

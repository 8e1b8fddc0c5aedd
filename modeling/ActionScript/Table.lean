/-! # Tables

A table maps keys to values and keeps the order in which its keys were added. Writing a key that
is present keeps its place; a key that was erased and is written again comes last. -/

namespace ActionScript

/-- Entries with different keys, in the order in which the keys came. -/
structure Table (κ ν : Type) where
  entries : List (κ × ν)
  nodup : (entries.map Prod.fst).Nodup

namespace Table

variable {κ ν : Type}

/-- The table without entries. -/
def empty : Table κ ν := ⟨[], List.nodup_nil⟩

instance : Inhabited (Table κ ν) := ⟨empty⟩

/-- The keys in their order. -/
def keys (t : Table κ ν) : List κ := t.entries.map Prod.fst

@[simp] theorem keys_empty : (empty : Table κ ν).keys = [] := rfl

def values (t : Table κ ν) : List ν := t.entries.map Prod.snd

def isEmpty (t : Table κ ν) : Bool := t.entries.isEmpty

/-- Erases every key with the property. -/
def eraseWhere (t : Table κ ν) (p : κ → Bool) : Table κ ν where
  entries := t.entries.filter fun e => !p e.1
  nodup := t.nodup.sublist (List.filter_sublist.map _)

@[simp] theorem keys_eraseWhere (t : Table κ ν) (p : κ → Bool) :
    (t.eraseWhere p).keys = t.keys.filter fun k => !p k := by
  rw [keys, keys, List.filter_map]
  rfl

variable [DecidableEq κ]

/-- The value of a key. -/
def find? (t : Table κ ν) (k : κ) : Option ν := t.entries.lookup k

def contains (t : Table κ ν) (k : κ) : Bool := k ∈ t.keys

/-- Changes the value of one key in a list of entries. -/
def modifyEntries (k : κ) (f : ν → ν) (entries : List (κ × ν)) : List (κ × ν) :=
  entries.map fun e => if e.1 = k then (e.1, f e.2) else e

theorem map_fst_modifyEntries (k : κ) (f : ν → ν) (entries : List (κ × ν)) :
    (modifyEntries k f entries).map Prod.fst = entries.map Prod.fst := by
  rw [modifyEntries, List.map_map]
  apply List.map_congr_left
  intro e _
  show (if e.1 = k then (e.1, f e.2) else e).1 = e.1
  split <;> rfl

/-- Changes the value of a key that is present, and does nothing for another key. -/
def modify (t : Table κ ν) (k : κ) (f : ν → ν) : Table κ ν where
  entries := modifyEntries k f t.entries
  nodup := map_fst_modifyEntries k f t.entries ▸ t.nodup

/-- Adds a key that is absent at the end. -/
def append (t : Table κ ν) (k : κ) (v : ν) (h : k ∉ t.keys) : Table κ ν where
  entries := t.entries ++ [(k, v)]
  nodup := by
    rw [List.map_append, List.nodup_append]
    refine ⟨t.nodup, List.nodup_cons.2 ⟨List.not_mem_nil, List.nodup_nil⟩, ?_⟩
    rintro a ha b hb rfl
    cases List.mem_singleton.1 hb
    exact h ha

/-- Puts a value under a key: in place if the key is there, else at the end. -/
def insert (t : Table κ ν) (k : κ) (v : ν) : Table κ ν :=
  if h : k ∈ t.keys then t.modify k fun _ => v else t.append k v h

/-- Drops the entry of a key. -/
def erase (t : Table κ ν) (k : κ) : Table κ ν where
  entries := t.entries.filter fun e => e.1 ≠ k
  nodup := t.nodup.sublist (List.filter_sublist.map _)

/-! ## Keys -/

@[simp] theorem keys_modify (t : Table κ ν) (k : κ) (f : ν → ν) :
    (t.modify k f).keys = t.keys := map_fst_modifyEntries k f t.entries

theorem keys_insert_of_mem {t : Table κ ν} {k : κ} (h : k ∈ t.keys) (v : ν) :
    (t.insert k v).keys = t.keys := by
  rw [insert, dif_pos h, keys_modify]

theorem keys_insert_of_not_mem {t : Table κ ν} {k : κ} (h : k ∉ t.keys) (v : ν) :
    (t.insert k v).keys = t.keys ++ [k] := by
  rw [insert, dif_neg h]
  exact List.map_append

@[simp] theorem keys_erase (t : Table κ ν) (k : κ) :
    (t.erase k).keys = t.keys.filter (· ≠ k) := by
  rw [keys, keys, List.filter_map]
  rfl

/-! ## Lookup -/

@[simp] theorem find?_empty (k : κ) : (empty : Table κ ν).find? k = none := rfl

theorem isSome_find?_iff {t : Table κ ν} {k : κ} : (t.find? k).isSome ↔ k ∈ t.keys := by
  rw [find?, List.lookup_isSome_iff, keys, List.mem_map]
  constructor
  · rintro ⟨e, he, hk⟩
    exact ⟨e, he, (beq_iff_eq.1 hk).symm⟩
  · rintro ⟨e, he, hk⟩
    exact ⟨e, he, beq_iff_eq.2 hk.symm⟩

theorem find?_eq_none_iff {t : Table κ ν} {k : κ} : t.find? k = none ↔ k ∉ t.keys := by
  rw [← isSome_find?_iff]
  cases t.find? k <;> simp

private theorem lookup_cons_eq (k : κ) (v : ν) (entries : List (κ × ν)) :
    ((k, v) :: entries).lookup k = some v := by
  rw [List.lookup_cons, beq_self_eq_true]

private theorem lookup_cons_ne {k a : κ} (h : k ≠ a) (v : ν) (entries : List (κ × ν)) :
    ((a, v) :: entries).lookup k = entries.lookup k := by
  rw [List.lookup_cons, beq_false_of_ne h]

private theorem lookup_modifyEntries (k k' : κ) (f : ν → ν) (entries : List (κ × ν)) :
    (modifyEntries k f entries).lookup k' =
      if k' = k then (entries.lookup k').map f else entries.lookup k' := by
  induction entries with
  | nil => simp [modifyEntries]
  | cons e entries ih =>
    obtain ⟨a, v⟩ := e
    have hcons : modifyEntries k f ((a, v) :: entries) =
        (a, if a = k then f v else v) :: modifyEntries k f entries := by
      rw [modifyEntries, List.map_cons, ← modifyEntries]
      split <;> rfl
    rw [hcons]
    by_cases h : k' = a
    · subst h
      rw [lookup_cons_eq, lookup_cons_eq]
      split <;> rfl
    · rw [lookup_cons_ne h, lookup_cons_ne h, ih]

theorem find?_modify (t : Table κ ν) (k k' : κ) (f : ν → ν) :
    (t.modify k f).find? k' = if k' = k then (t.find? k').map f else t.find? k' :=
  lookup_modifyEntries k k' f t.entries

/-- A key that was written has the value that was written, and the others keep theirs. -/
theorem find?_insert (t : Table κ ν) (k k' : κ) (v : ν) :
    (t.insert k v).find? k' = if k' = k then some v else t.find? k' := by
  by_cases h : k ∈ t.keys
  · rw [insert, dif_pos h, find?_modify]
    split
    · rename_i hk
      rw [← hk] at h
      obtain ⟨old, hold⟩ := Option.isSome_iff_exists.1 (isSome_find?_iff.2 h)
      rw [hold]
      rfl
    · rfl
  · rw [insert, dif_neg h]
    show (t.entries ++ [(k, v)]).lookup k' = _
    rw [List.lookup_append]
    split
    · rename_i hk
      have hnone : t.entries.lookup k' = none := find?_eq_none_iff.2 (hk ▸ h)
      rw [hnone, hk, lookup_cons_eq]
      rfl
    · rename_i hk
      rw [lookup_cons_ne hk, List.lookup_nil, Option.or_none]
      rfl

private theorem lookup_filter (p : κ → Bool) (k : κ) (entries : List (κ × ν)) :
    (entries.filter fun e => p e.1).lookup k = if p k then entries.lookup k else none := by
  induction entries with
  | nil => simp
  | cons e entries ih =>
    obtain ⟨a, v⟩ := e
    by_cases h : k = a
    · subst h
      cases hp : p k with
      | true =>
        rw [List.filter_cons_of_pos (by exact hp), lookup_cons_eq, lookup_cons_eq]
        rfl
      | false =>
        rw [List.filter_cons_of_neg (by simp [hp]), ih, hp]
        rfl
    · rw [lookup_cons_ne h, ← ih]
      cases hp : p a with
      | true => rw [List.filter_cons_of_pos (by exact hp), lookup_cons_ne h]
      | false => rw [List.filter_cons_of_neg (by simp [hp])]

theorem find?_erase (t : Table κ ν) (k k' : κ) :
    (t.erase k).find? k' = if k' = k then none else t.find? k' := by
  have h := lookup_filter (fun a => decide (a ≠ k)) k' t.entries
  rw [find?, erase, h]
  by_cases hk : k' = k <;> simp [hk, find?]

theorem find?_eraseWhere (t : Table κ ν) (p : κ → Bool) (k : κ) :
    (t.eraseWhere p).find? k = if p k then none else t.find? k := by
  have h := lookup_filter (fun a => !p a) k t.entries
  rw [find?, eraseWhere, h]
  by_cases hk : p k <;> simp [hk, find?]

end Table

end ActionScript

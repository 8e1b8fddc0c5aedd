import Mathlib.Data.List.Chain
import ActionScript.Proofs.Arena

/-! # The order of keys through time

An object drops keys and adds others at the end, so the keys that it keeps stay in their order
(`KeyStep`). After any number of such steps the keys stand in the order in which each of them last
became present (`pairwise_keyAge`). -/

namespace ActionScript

/-! ## Steps -/

/-- The keys that are kept stay in their order, and those that are new come after them. -/
def KeyStep (old new : List String) : Prop :=
  new = old.filter (· ∈ new) ++ new.filter (· ∉ old)

theorem KeyStep.extend {old new : List String} (h : old <+: new) (hnodup : new.Nodup) :
    KeyStep old new := by
  obtain ⟨added, rfl⟩ := h
  have hdisjoint : ∀ key ∈ added, key ∉ old := fun key hkey hold =>
    (List.nodup_append'.mp hnodup).2.2 hold hkey
  have hkept : old.filter (· ∈ old ++ added) = old :=
    List.filter_eq_self.mpr fun key hkey => by simp [hkey]
  have hadded : (old ++ added).filter (· ∉ old) = added := by
    rw [List.filter_append, List.filter_eq_nil_iff.mpr (by simp), List.nil_append]
    exact List.filter_eq_self.mpr fun key hkey => by simpa using hdisjoint key hkey
  rw [KeyStep, hkept, hadded]

theorem KeyStep.of_filter (p : String → Bool) (old : List String) :
    KeyStep old (old.filter p) := by
  have hkept : old.filter (· ∈ old.filter p) = old.filter p := by
    apply List.filter_congr
    intro key hkey
    simp [hkey]
  have hadded : (old.filter p).filter (· ∉ old) = [] := by
    apply List.filter_eq_nil_iff.mpr
    intro key hkey
    simp [(List.mem_filter.mp hkey).1]
  rw [KeyStep, hkept, hadded, List.append_nil]

/-! ## The keys of an object in a heap -/

namespace Heap

variable {h h' : Heap}

/-- The keys of an object in their order; a stale handle has none. -/
def keysOf (h : Heap) (o : ObjectId) : List String :=
  match h.get? o with
  | some object => object.properties.keys
  | none => []

theorem keysOf_eq {o : ObjectId} {object : Object} (ho : h.get? o = some object) :
    h.keysOf o = object.properties.keys := by
  rw [keysOf, ho]

theorem mem_keysOf_of_slot? {o : ObjectId} {key : String} {p : Property}
    (hslot : h.slot? o key = some p) : key ∈ h.keysOf o := by
  obtain ⟨x, hx, hp⟩ := Option.bind_eq_some_iff.mp hslot
  rw [keysOf_eq hx, ← Table.isSome_find?_iff, hp]
  rfl

theorem keysOf_nodup (h : Heap) (o : ObjectId) : (h.keysOf o).Nodup := by
  rw [keysOf]
  split
  · rename_i object _
    exact object.properties.nodup
  · exact List.nodup_nil

/-- Every object of the one heap has its keys in the other, in the same order and perhaps followed
by more. -/
def Grows (h h' : Heap) : Prop := ∀ o, h.keysOf o <+: h'.keysOf o

theorem Grows.refl (h : Heap) : h.Grows h := fun _ => List.prefix_refl _

theorem Grows.trans {h'' : Heap} (hg : h.Grows h') (hg' : h'.Grows h'') : h.Grows h'' :=
  fun o => (hg o).trans (hg' o)

/-- What a change of one heap into another may do to the keys. -/
def KeySteps (h h' : Heap) : Prop := ∀ o, KeyStep (h.keysOf o) (h'.keysOf o)

theorem Grows.keySteps (hg : h.Grows h') : h.KeySteps h' :=
  fun o => .extend (hg o) (h'.keysOf_nodup o)

theorem Arena.grows_allocate (ha : h.Arena) (object : Object) :
    h.Grows (h.allocate object).2 := by
  intro o
  have hdead := ha.not_isLive_allocate object
  simp only [keysOf, ha.get?_allocate]
  split
  · rename_i x hx
    by_cases ho : o = (h.allocate object).1
    · subst ho
      exact (hdead (isLive_of_get? hx)).elim
    · rw [if_neg ho, hx]
  · exact List.nil_prefix

theorem keysOf_modify (o p : ObjectId) (f : Object → Object) :
    (h.modify o f).keysOf p =
      if p = o then ((h.get? p).map fun x => (f x).properties.keys).getD [] else h.keysOf p := by
  rw [keysOf, keysOf, get?_modify]
  by_cases hp : p = o
  · rw [if_pos hp, if_pos hp]
    cases h.get? p <;> rfl
  · rw [if_neg hp, if_neg hp]

theorem grows_modify {f : Object → Object} (o : ObjectId)
    (hf : ∀ x, x.properties.keys <+: (f x).properties.keys) : h.Grows (h.modify o f) := by
  intro p
  rw [keysOf_modify]
  by_cases hp : p = o
  · rw [if_pos hp, keysOf]
    cases h.get? p with
    | none => exact List.prefix_refl _
    | some x => exact hf x
  · rw [if_neg hp]

theorem grows_setPrototype (h : Heap) (o : ObjectId) (p : Option ObjectId) :
    h.Grows (h.setPrototype o p).2 := by
  rw [setPrototype]
  split
  · exact .refl h
  · exact grows_modify o fun _ => List.prefix_refl _

theorem keySteps_eraseWhere (o : ObjectId) (p : String → Bool) :
    h.KeySteps (h.modify o fun x => { x with properties := x.properties.eraseWhere p }) := by
  intro q
  rw [keysOf_modify]
  by_cases hq : q = o
  · rw [if_pos hq, keysOf]
    cases h.get? q with
    | none => exact .extend (List.prefix_refl _) List.nodup_nil
    | some x =>
      show KeyStep _ (x.properties.eraseWhere p).keys
      rw [Table.keys_eraseWhere]
      exact .of_filter _ _
  · rw [if_neg hq]
    exact .extend (List.prefix_refl _) (h.keysOf_nodup q)

theorem keySteps_collect (roots : List ObjectId) : h.KeySteps (h.collect roots).2 := by
  classical
  intro o
  have hkeys : (h.collect roots).2.keysOf o =
      if h.Reaches (· ∈ roots) o then h.keysOf o else [] := by
    rw [keysOf, keysOf, get?_collect]
    by_cases hreach : h.Reaches (· ∈ roots) o
    · rw [if_pos hreach, if_pos hreach]
    · rw [if_neg hreach, if_neg hreach]
  rw [hkeys]
  split
  · exact .extend (List.prefix_refl _) (h.keysOf_nodup o)
  · simpa using KeyStep.of_filter (fun _ => false) (h.keysOf o)

end Heap

/-! ## Histories -/

/-- For how many of the given movies in a row, from the first one on, an object has had a key. -/
def keyAge (past : List Movie) (o : ObjectId) (key : String) : Nat :=
  (past.takeWhile fun m => key ∈ m.heap.keysOf o).length

/-- Movies, latest first, each of which came from the next by a step. -/
def IsHistory (past : List Movie) : Prop :=
  past.IsChain fun new old => old.heap.KeySteps new.heap

theorem keyAge_cons {m : Movie} {past : List Movie} {o : ObjectId} {key : String}
    (h : key ∈ m.heap.keysOf o) : keyAge (m :: past) o key = keyAge past o key + 1 := by
  rw [keyAge, List.takeWhile_cons_of_pos (by simpa using h), List.length_cons, keyAge]

theorem keyAge_cons_of_not_mem {m : Movie} {past : List Movie} {o : ObjectId} {key : String}
    (h : key ∉ m.heap.keysOf o) : keyAge (m :: past) o key = 0 := by
  rw [keyAge, List.takeWhile_cons_of_neg (by simpa using h), List.length_nil]

/-- Keys stand in the order in which they last became present. -/
theorem pairwise_keyAge {m : Movie} {past : List Movie} (h : IsHistory (m :: past)) (o : ObjectId) :
    (m.heap.keysOf o).Pairwise fun key key' =>
      keyAge (m :: past) o key' ≤ keyAge (m :: past) o key := by
  induction past generalizing m with
  | nil =>
    refine List.Pairwise.imp_of_mem (fun hkey hkey' _ => ?_) (m.heap.keysOf_nodup o)
    rw [keyAge_cons hkey, keyAge_cons hkey']
    exact Nat.le_refl _
  | cons old past ih =>
    obtain ⟨hstep, hpast⟩ := List.isChain_cons_cons.mp h
    have hold := ih hpast
    -- A key that the latest step has added is the youngest there is.
    have hadded : ∀ key ∈ (m.heap.keysOf o).filter (· ∉ old.heap.keysOf o),
        keyAge (m :: old :: past) o key = 1 := by
      intro key hkey
      obtain ⟨hkey, hnew⟩ := List.mem_filter.mp hkey
      rw [keyAge_cons hkey, keyAge_cons_of_not_mem (by simpa using hnew)]
    have hpositive : ∀ key ∈ m.heap.keysOf o, 1 ≤ keyAge (m :: old :: past) o key := by
      intro key hkey
      rw [keyAge_cons hkey]
      exact Nat.le_add_left 1 _
    have hkeys := hstep o
    rw [KeyStep] at hkeys
    rw [hkeys, List.pairwise_append]
    refine ⟨?_, ?_, ?_⟩
    · refine List.Pairwise.imp_of_mem (fun hkey hkey' hle => ?_) (hold.filter _)
      have hkey := of_decide_eq_true (List.mem_filter.mp hkey).2
      have hkey' := of_decide_eq_true (List.mem_filter.mp hkey').2
      rw [keyAge_cons hkey, keyAge_cons hkey']
      exact Nat.succ_le_succ hle
    · refine List.Pairwise.imp_of_mem (fun {key key'} hkey hkey' _ => ?_)
        ((m.heap.keysOf_nodup o).filter _)
      rw [hadded key hkey, hadded key' hkey']
    · intro key hkey key' hkey'
      rw [hadded key' hkey']
      exact hpositive key (by simpa using (List.mem_filter.mp hkey).2)

end ActionScript

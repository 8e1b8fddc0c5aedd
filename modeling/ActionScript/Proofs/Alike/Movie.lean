import ActionScript.Movie.Arrays
import ActionScript.Proofs.Alike.Object
import ActionScript.Proofs.Chain

/-! # Movies that are alike

Movies are alike under a matching if their registries are, and if handles that stand for each
other lead to objects that are alike. Such movies answer every question alike. The bounds of their
chains may differ, but a longer chain shows nothing new, so a walk of one common length serves for
both (`find?_eq_findSome?`). -/

namespace ActionScript

variable {r s : Matching}

inductive ClassKey.Alike (r : Matching) : ClassKey → ClassKey → Prop
  | host : Alike r (.host cls) (.host cls)
  | object : r.handle o p → Alike r (.object o) (.object p)

theorem ClassKey.Alike.mono (h : r ≤ s) {key key' : ClassKey} (hk : ClassKey.Alike r key key') :
    ClassKey.Alike s key key' := by
  cases hk with
  | host => exact .host
  | object ho => exact .object (h.1 ho)

theorem ClassKey.alike_biUnique (h : Relator.BiUnique r.handle) :
    Relator.BiUnique (ClassKey.Alike r) := by
  constructor
  · rintro _ _ _ (_ | ho) (_ | hp)
    · rfl
    · rw [h.1 ho hp]
  · rintro _ _ _ (_ | ho) (_ | hp)
    · rfl
    · rw [h.2 ho hp]

structure Movie.Alike (r : Matching) (m m' : Movie) : Prop where
  handles : Relator.BiUnique r.handle
  spellings : ∀ name, r.spelling name name
  settings : m.settings = m'.settings
  executor : m.executor = m'.executor
  observers : m.observers = m'.observers
  actions : m.actions = m'.actions
  random : m.random = m'.random
  symbols : m.assets.symbols = m'.assets.symbols
  descriptions : m.assets.descriptions = m'.assets.descriptions
  intrinsics : List.Forall₂ r.handle m.intrinsics.all m'.intrinsics.all
  global : r.handle m.global m'.global
  staticStates : Table.Alike (ClassKey.Alike r) r.handle m.staticStates m'.staticStates
  initializers : Table.Alike r.handle Eq m.initializers m'.initializers
  classes : Table.Alike Eq r.handle m.assets.classes m'.assets.classes
  pins : Table.Alike r.handle Eq m.pins m'.pins
  objects : ∀ {o o'}, r.handle o o' →
    Option.Rel (Object.Alike r) (m.heap.get? o) (m'.heap.get? o')

/-! ## Walks of any sufficient length -/

namespace Heap

variable {h : Heap} {o : ObjectId} {n : Nat}

/-- A chain walked up to more steps than there are slots finds what the whole chain has. -/
theorem findSome?_chainUpTo {α : Type} (f : ObjectId → Option α) (hn : h.slots.size < n) :
    (h.chainUpTo n o).findSome? f = (h.chain o).findSome? f := by
  obtain ⟨rest, hrest, hmem⟩ := chainUpTo_eq_append (o := o) hn
  rw [hrest, List.findSome?_append]
  cases hfind : (h.chain o).findSome? f with
  | some a => rfl
  | none =>
    rw [Option.none_or]
    rw [List.findSome?_eq_none_iff] at hfind ⊢
    exact fun p hp => hfind p (hmem p hp)

/-- Inherited lookup is the first own slot along the chain, at any bound above the slots. -/
theorem find?_eq_findSome? (key : String) (hn : h.slots.size < n) :
    h.find? o key = (h.chainUpTo n o).findSome? fun owner => (h.own? owner key).map (owner, ·) :=
  (findSome?_chainUpTo _ hn).symm

/-- Bounds above the number of slots leave the members of a chain. -/
theorem mem_chain_iff_mem_chainUpTo {p : ObjectId} (hn : h.slots.size < n) :
    p ∈ h.chain o ↔ p ∈ h.chainUpTo n o := by
  rw [mem_chainUpTo_iff]
  constructor
  · intro hp
    obtain ⟨k, hk, hwalk⟩ := mem_chainUpTo_iff.mp hp
    exact ⟨k, by omega, hwalk⟩
  · rintro ⟨k, _, hwalk⟩
    exact mem_chain_of_walk hwalk

end Heap

/-! ## Observations -/

namespace Movie.Alike

variable {m m' : Movie} (h : Movie.Alike r m m')
include h

/-- Alike movies have the same normal forms. -/
theorem normalize (name : String) : m.normalize name = m'.normalize name := by
  rw [Movie.normalize, Movie.normalize, h.settings]

/-- The built-in objects stand for each other, each in its role. -/
theorem intrinsic (k : Nat) (hk : k < 17) :
    r.handle (m.intrinsics.all.get ⟨k, hk⟩) (m'.intrinsics.all.get ⟨k, hk⟩) :=
  h.intrinsics.get hk hk

theorem objectPrototype :
    r.handle m.intrinsics.objectPrototype m'.intrinsics.objectPrototype :=
  h.intrinsic 1 (by decide)

theorem functionPrototype :
    r.handle m.intrinsics.functionPrototype m'.intrinsics.functionPrototype :=
  h.intrinsic 3 (by decide)

theorem arrayPrototype : r.handle m.intrinsics.arrayPrototype m'.intrinsics.arrayPrototype :=
  h.intrinsic 5 (by decide)

theorem numberPrototype : r.handle m.intrinsics.numberPrototype m'.intrinsics.numberPrototype :=
  h.intrinsic 7 (by decide)

theorem booleanPrototype :
    r.handle m.intrinsics.booleanPrototype m'.intrinsics.booleanPrototype :=
  h.intrinsic 9 (by decide)

theorem stringPrototype : r.handle m.intrinsics.stringPrototype m'.intrinsics.stringPrototype :=
  h.intrinsic 11 (by decide)

theorem datePrototype : r.handle m.intrinsics.datePrototype m'.intrinsics.datePrototype :=
  h.intrinsic 13 (by decide)

theorem error : r.handle m.intrinsics.error m'.intrinsics.error :=
  h.intrinsic 15 (by decide)

theorem errorPrototype : r.handle m.intrinsics.errorPrototype m'.intrinsics.errorPrototype :=
  h.intrinsic 16 (by decide)

section Handle

variable {o o' : ObjectId} (ho : r.handle o o')
include ho

/-- Paired handles are live together. -/
theorem isLive : m.heap.isLive o = m'.heap.isLive o' := optionRel_isSome (h.objects ho)

/-- The links of paired objects are paired. -/
theorem prototype? : Option.Rel r.handle (m.heap.prototype? o) (m'.heap.prototype? o') :=
  optionRel_bind (h.objects ho) Object.Alike.prototype

/-- Paired objects have alike slots under the same keys. -/
theorem slot? (key : String) :
    Option.Rel (Property.Alike r) (m.heap.slot? o key) (m'.heap.slot? o' key) :=
  optionRel_bind (h.objects ho) fun hx => hx.find? key

theorem own? (key : String) :
    Option.Rel (Property.Alike r) (m.heap.own? o key) (m'.heap.own? o' key) := by
  rw [Heap.own?, Heap.own?]
  rcases optionRel_cases (h.slot? ho key) with ⟨p, p', hp, hp', hslot⟩ | ⟨hnone, hnone'⟩
  · rw [hp, hp']
    exact .some hslot
  · rw [hnone, hnone']
    by_cases hkey : key = Heap.protoKey
    · simp only [if_pos hkey]
      rcases optionRel_cases (h.prototype? ho) with ⟨p, p', hp, hp', hproto⟩ | ⟨hnone, hnone'⟩
      · rw [hp, hp']
        exact .some (.data (.object hproto) _)
      · rw [hnone, hnone']
        exact .none
    · simp only [if_neg hkey]
      exact .none

theorem kind : (m.heap.get? o).map Object.kind = (m'.heap.get? o').map Object.kind := by
  rcases optionRel_cases (h.objects ho) with ⟨x, x', hx, hx', halike⟩ | ⟨hnone, hnone'⟩
  · rw [hx, hx', Option.map_some, Option.map_some, halike.kind]
  · rw [hnone, hnone', Option.map_none]

theorem isArray : m.heap.isArray o = m'.heap.isArray o' := by
  rw [Heap.isArray, Heap.isArray]
  rcases optionRel_cases (h.objects ho) with ⟨x, x', hx, hx', halike⟩ | ⟨hnone, hnone'⟩
  · rw [hx, hx', Option.any_some, Option.any_some, halike.isArray]
  · rw [hnone, hnone', Option.any_none]

theorem callable? : m.heap.callable? o = m'.heap.callable? o' := by
  rw [Heap.callable?, Heap.callable?]
  rcases optionRel_cases (h.objects ho) with ⟨x, x', hx, hx', halike⟩ | ⟨hnone, hnone'⟩
  · rw [hx, hx', Option.bind_some, Option.bind_some, halike.callable?]
  · rw [hnone, hnone', Option.bind_none]

/-- The chains of paired objects are paired step by step. -/
theorem chainUpTo (n : Nat) :
    List.Forall₂ r.handle (m.heap.chainUpTo n o) (m'.heap.chainUpTo n o') := by
  induction n generalizing o o' with
  | zero => exact .nil
  | succ n ih =>
    rw [Heap.chainUpTo, Heap.chainUpTo]
    refine .cons ho ?_
    rcases optionRel_cases (h.prototype? ho) with ⟨p, p', hp, hp', hproto⟩ | ⟨hnone, hnone'⟩
    · rw [hp, hp']
      exact ih hproto
    · rw [hnone, hnone']
      exact .nil

omit ho in
/-- Marking goes the same way in both movies. -/
theorem mark {marks marks' : Array Bool} {work work' : List ObjectId}
    (hsize : marks.size = m.heap.slots.size) (hsize' : marks'.size = m'.heap.slots.size)
    (hmarks : ∀ {o o'}, r.handle o o' → (Heap.Marked marks o ↔ Heap.Marked marks' o'))
    (hwork : List.Forall₂ r.handle work work') :
    ∃ n, (m.heap.mark marks work).count true = marks.count true + n ∧
      (m'.heap.mark marks' work').count true = marks'.count true + n := by
  fun_induction Heap.mark m.heap marks work generalizing marks' work' with
  | case1 =>
    cases hwork
    exact ⟨0, rfl, by rw [Heap.mark, Nat.add_zero]⟩
  | case2 marks p work hp ih =>
    cases hwork with
    | cons hpp hwork =>
      rcases optionRel_cases (h.objects hpp) with ⟨_, _, hx, _⟩ | ⟨_, hp'⟩
      · cases hp.symm.trans hx
      · rw [Heap.mark_of_get?_eq_none hp']
        exact ih hsize hsize' hmarks hwork
  | case3 marks p work x hp fresh ih =>
    cases hwork with
    | @cons _ p' _ work' hpp hwork =>
      rcases optionRel_cases (h.objects hpp) with ⟨_, x', hx, hp', halike⟩ | ⟨hx, _⟩
      · cases hp.symm.trans hx
        have hlt' : p'.index < marks'.size :=
          hsize' ▸ Heap.index_lt_of_isLive (Heap.isLive_of_get? hp')
        obtain ⟨hlt, hmark⟩ := Heap.fresh_iff.mp fresh
        have hmark' : ¬ Heap.Marked marks' p' := mt (hmarks hpp).mpr hmark
        have hset : ∀ {o o'}, r.handle o o' → (Heap.Marked (marks.set p.index true hlt) o ↔
            Heap.Marked (marks'.set p'.index true hlt') o') := by
          intro o o' ho
          have hsame : o = p ↔ o' = p' := Relator.rel_eq h.handles ho hpp
          rw [Heap.marked_set, Heap.marked_set, Heap.index_inj, Heap.index_inj, hmarks ho, hsame]
        obtain ⟨n, hn, hn'⟩ := ih (by rw [Array.size_set, hsize]) (by rw [Array.size_set, hsize'])
          hset (List.rel_append halike.references hwork)
        rw [Heap.count_set_true hlt hmark] at hn
        rw [Heap.count_set_true hlt' hmark', ← Heap.mark_of_not_marked hp' hlt' hmark'] at hn'
        exact ⟨n + 1, by omega, by omega⟩
      · cases hp.symm.trans hx
  | case4 marks p work x hp stale ih =>
    cases hwork with
    | @cons _ p' _ work' hpp hwork =>
      rcases optionRel_cases (h.objects hpp) with ⟨_, x', hx, hp', _⟩ | ⟨hx, _⟩
      · have hlt : p.index < marks.size :=
          hsize ▸ Heap.index_lt_of_isLive (Heap.isLive_of_get? hp)
        have hmark : Heap.Marked marks p := by
          by_contra hmark
          exact stale (Heap.fresh_iff.mpr ⟨hlt, hmark⟩)
        rw [Heap.mark_of_marked hp' ((hmarks hpp).mp hmark)]
        exact ih hsize hsize' hmarks hwork
      · cases hp.symm.trans hx

/-- Paired objects lead to as many objects. -/
theorem extent : m.heap.extent o = m'.heap.extent o' := by
  have hmarked : ∃ n,
      (m.heap.marked [o]).count true =
        (Array.replicate m.heap.slots.size false).count true + n ∧
      (m'.heap.marked [o']).count true =
        (Array.replicate m'.heap.slots.size false).count true + n :=
    h.mark Array.size_replicate Array.size_replicate
      (fun _ => iff_of_false Heap.not_marked_replicate Heap.not_marked_replicate)
      (.cons ho .nil)
  obtain ⟨n, hn, hn'⟩ := hmarked
  rw [Heap.extent, Heap.extent, hn, hn', Array.count_replicate, Array.count_replicate]
  rfl

/-- A length of walks that is enough for both movies. -/
theorem exists_length : ∃ n, m.heap.slots.size < n ∧ m'.heap.slots.size < n ∧
    List.Forall₂ r.handle (m.heap.chainUpTo n o) (m'.heap.chainUpTo n o') :=
  ⟨m.heap.slots.size + m'.heap.slots.size + 1, by omega, by omega, h.chainUpTo ho _⟩

/-- Inherited lookup finds alike slots on paired owners. -/
theorem find? (key : String) :
    Option.Rel (fun e e' => r.handle e.1 e'.1 ∧ Property.Alike r e.2 e'.2)
      (m.heap.find? o key) (m'.heap.find? o' key) := by
  obtain ⟨n, hn, hn', hchain⟩ := h.exists_length ho
  rw [Heap.find?_eq_findSome? key hn, Heap.find?_eq_findSome? key hn']
  generalize m.heap.chainUpTo n o = chain at hchain
  generalize m'.heap.chainUpTo n o' = chain' at hchain
  induction hchain with
  | nil => exact .none
  | cons hp _ ih =>
    rw [List.findSome?_cons, List.findSome?_cons]
    rcases optionRel_cases (h.own? hp key) with ⟨p, p', hp, hp', hslot⟩ | ⟨hnone, hnone'⟩
    · rw [hp, hp']
      exact .some ⟨‹_›, hslot⟩
    · rw [hnone, hnone']
      exact ih

/-- Paired objects refuse the same writes. -/
theorem canPut (key : String) : m.heap.canPut o key = m'.heap.canPut o' key := by
  rw [Heap.canPut_eq, Heap.canPut_eq]
  rcases optionRel_cases (h.find? ho key) with ⟨e, e', he, he', halike⟩ | ⟨hnone, hnone'⟩
  · rw [he, he']
    exact halike.2.isWritable
  · rw [hnone, hnone']

/-- Paired handles lie on the chains of paired objects together. -/
theorem mem_chain_iff {p p' : ObjectId} (hp : r.handle p p') :
    p ∈ m.heap.chain o ↔ p' ∈ m'.heap.chain o' := by
  obtain ⟨n, hn, hn', hchain⟩ := h.exists_length ho
  rw [Heap.mem_chain_iff_mem_chainUpTo hn, Heap.mem_chain_iff_mem_chainUpTo hn']
  exact List.rel_mem h.handles hp hchain

/-- An object stands above another if it stands on the chain of its prototype. -/
theorem isPrototypeOf {p p' : ObjectId} (hp : r.handle p p') :
    m.heap.isPrototypeOf p o = m'.heap.isPrototypeOf p' o' := by
  have hiff : ∀ (heap : Heap) (o p : ObjectId), heap.isPrototypeOf p o ↔
      ∃ q, heap.prototype? o = some q ∧ p ∈ heap.chain q := by
    intro heap o p
    rw [Heap.isPrototypeOf_iff]
    constructor
    · rintro ⟨k, hk, hwalk⟩
      obtain ⟨k, rfl⟩ := Nat.exists_eq_succ_of_ne_zero hk.ne'
      obtain ⟨q, hq, hwalk⟩ := Option.bind_eq_some_iff.mp hwalk
      exact ⟨q, hq, Heap.mem_chain_of_walk hwalk⟩
    · rintro ⟨q, hq, hmem⟩
      obtain ⟨k, hwalk⟩ := Heap.mem_chain_iff.mp hmem
      exact ⟨k + 1, k.succ_pos, (Heap.walk_succ_of_link hq).trans hwalk⟩
  rw [Bool.eq_iff_iff, hiff, hiff]
  rcases optionRel_cases (h.prototype? ho) with ⟨q, q', hq, hq', hproto⟩ | ⟨hnone, hnone'⟩
  · simp only [hq, hq', Option.some.injEq, exists_eq_left', h.mem_chain_iff hproto hp]
  · simp only [hnone, hnone', reduceCtorEq, false_and, exists_false]

theorem named (name : String) :
    Option.Rel (Property.Alike r) (m.own? o name) (m'.own? o' name) := by
  rw [Movie.own?, Movie.own?, h.normalize]
  exact h.own? ho _

/-- Paired objects own the same names. -/
theorem hasOwn (name : String) : m.hasOwn o name = m'.hasOwn o' name :=
  optionRel_isSome (h.named ho name)

/-- Paired objects have the same names along their chains. -/
theorem has (name : String) : m.has o name = m'.has o' name := by
  rw [Movie.has, Movie.has, Movie.find?, Movie.find?, h.normalize, Option.isSome_map,
    Option.isSome_map, optionRel_isSome (h.find? ho _)]

end Handle

section Value

variable {v v' : Value} (hv : Value.Alike r v v')
include hv

theorem isCallable : m.heap.isCallable v = m'.heap.isCallable v' := by
  cases hv with
  | object ho => exact congrArg Option.isSome (h.callable? ho)
  | _ => rfl

theorem describe : m.describe v = m'.describe v' := by
  cases hv with
  | object ho =>
    rw [Movie.describe, Movie.describe]
    rcases optionRel_cases (h.objects ho) with ⟨x, x', hx, hx', halike⟩ | ⟨hnone, hnone'⟩
    · simp only [hx, hx', halike.callable?]
    · simp only [hnone, hnone']
  | _ => rfl

theorem kind_object? : (v.object?.bind m.heap.get?).map Object.kind =
    (v'.object?.bind m'.heap.get?).map Object.kind := by
  cases hv with
  | object ho => exact h.kind ho
  | _ => rfl

end Value

end Movie.Alike

/-! ## Enumeration -/

namespace Movie

/-- Entries whose keys were all seen before are dropped. -/
theorem firstOfKey_eq_nil {entries : List (String × String)} {seen : List String}
    (h : ∀ e ∈ entries, e.1 ∈ seen) : firstOfKey seen entries = [] := by
  induction entries with
  | nil => rfl
  | cons e entries ih =>
    rw [firstOfKey, if_pos (List.contains_iff_mem.mpr (h e List.mem_cons_self))]
    exact ih fun e' he' => h e' (List.mem_cons_of_mem _ he')

/-- Entries whose keys have been seen before are dropped. -/
theorem firstOfKey_append {entries rest : List (String × String)} {seen : List String}
    (hrest : ∀ e ∈ rest, e.1 ∈ seen ∨ e.1 ∈ entries.map Prod.fst) :
    firstOfKey seen (entries ++ rest) = firstOfKey seen entries := by
  induction entries generalizing seen with
  | nil => exact firstOfKey_eq_nil fun e he => (hrest e he).resolve_right List.not_mem_nil
  | cons e entries ih =>
    rw [List.cons_append, firstOfKey, firstOfKey]
    by_cases hseen : seen.contains e.1
    · rw [if_pos hseen, if_pos hseen]
      refine ih fun e' he' => ?_
      rcases hrest e' he' with h | h
      · exact .inl h
      · rcases List.mem_cons.mp h with h | h
        · exact .inl (h ▸ List.contains_iff_mem.mp hseen)
        · exact .inr h
    · rw [if_neg hseen, if_neg hseen, ih fun e' he' => ?_]
      rcases hrest e' he' with h | h
      · exact .inl (List.mem_cons_of_mem _ h)
      · rcases List.mem_cons.mp h with h | h
        · exact .inl (h ▸ List.mem_cons_self)
        · exact .inr h

/-- The merged listing may be read off a chain walked up to any bound above the slots. -/
theorem allKeys_eq_chainUpTo (m : Movie) (o : ObjectId) {n : Nat} (hn : m.heap.slots.size < n) :
    m.allKeys o =
      (firstOfKey [] ((m.heap.chainUpTo n o).flatMap m.enumerable)).map Prod.snd := by
  obtain ⟨rest, hrest, hmem⟩ := Heap.chainUpTo_eq_append (o := o) hn
  rw [allKeys, hrest, List.flatMap_append, firstOfKey_append]
  intro e he
  obtain ⟨p, hp, he⟩ := List.mem_flatMap.mp he
  exact .inr (List.mem_map.mpr ⟨e, List.mem_flatMap.mpr ⟨p, hmem p hp, he⟩, rfl⟩)

/-- Listings with the same keys lose the same entries to the merge. -/
theorem firstOfKey_alike {entries entries' : List (String × String)}
    (h : List.Forall₂ (fun e e' => e.1 = e'.1 ∧ r.spelling e.2 e'.2) entries entries')
    (seen : List String) :
    List.Forall₂ (fun e e' => e.1 = e'.1 ∧ r.spelling e.2 e'.2)
      (firstOfKey seen entries) (firstOfKey seen entries') := by
  induction h generalizing seen with
  | nil => exact .nil
  | cons he _ ih =>
    rw [firstOfKey, firstOfKey, he.1]
    split
    · exact ih _
    · exact .cons he (ih _)

/-- Paired objects enumerate the same keys, their spellings related. -/
theorem Alike.enumerable {m m' : Movie} (h : Movie.Alike r m m') {o o' : ObjectId}
    (ho : r.handle o o') :
    List.Forall₂ (fun e e' => e.1 = e'.1 ∧ r.spelling e.2 e'.2) (m.enumerable o)
      (m'.enumerable o') := by
  rw [Movie.enumerable, Movie.enumerable]
  rcases optionRel_cases (h.objects ho) with ⟨x, x', hx, hx', halike⟩ | ⟨hx, hx'⟩
  · rw [hx, hx']
    have hslots := List.rel_filter (p := fun e => e.2.isEnumerable)
      (q := fun e => e.2.isEnumerable) (fun e e' he => Bool.eq_iff_iff.mp he.2.isEnumerable)
      halike.properties
    refine List.rel_map (fun e e' he => ⟨he.1, ?_⟩) hslots
    show r.spelling (m.shownName e.1 e.2) (m'.shownName e'.1 e'.2)
    rw [shownName, shownName, h.settings, he.1]
    split
    · exact h.spellings _
    · rcases optionRel_cases he.2.spelling with ⟨a, b, ha, hb, hab⟩ | ⟨ha, hb⟩
      · rw [ha, hb]
        exact hab
      · rw [ha, hb]
        exact h.spellings _
  · rw [hx, hx']
    exact .nil

theorem Alike.ownKeys {m m' : Movie} (h : Movie.Alike r m m') {o o' : ObjectId}
    (ho : r.handle o o') : List.Forall₂ r.spelling (m.ownKeys o) (m'.ownKeys o') :=
  List.rel_map (fun _ _ he => he.2) (h.enumerable ho)

/-- Merged along paired chains, the listings still correspond name by name. -/
theorem Alike.allKeys {m m' : Movie} (h : Movie.Alike r m m') {o o' : ObjectId}
    (ho : r.handle o o') : List.Forall₂ r.spelling (m.allKeys o) (m'.allKeys o') := by
  obtain ⟨n, hn, hn', hchain⟩ := h.exists_length ho
  rw [allKeys_eq_chainUpTo m o hn, allKeys_eq_chainUpTo m' o' hn']
  have hentries := List.rel_flatMap hchain fun _ _ hp => h.enumerable hp
  exact List.rel_map (fun _ _ he => he.2) (firstOfKey_alike hentries [])

end Movie

end ActionScript

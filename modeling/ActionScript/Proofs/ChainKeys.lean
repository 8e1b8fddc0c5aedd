import ActionScript.Movie.Setup
import ActionScript.Proofs.Chain
import ActionScript.Proofs.Evaluation
import ActionScript.Proofs.KeyOrder

/-! # Enumeration along prototype chains

Enumeration walks up the prototypes and shows a key at the first object that has an enumerable slot
of it. Where no object is its own ancestor this is a recursion on the chain: the own keys come
first, and then those of the prototype that no own key has taken (`Movie.shown_of_link`,
`Movie.allKeys_merge`). A hidden slot takes no key, so an enumerable slot behind it is shown. -/

namespace ActionScript

/-! ## Walking up -/

namespace Heap

variable {h : Heap} {o p : ObjectId}

theorem chain_of_root (hroot : h.prototype? o = none) : h.chain o = [o] := by
  rw [chain, chainUpTo, hroot]

/-- The chain of an object goes on with the whole chain of its prototype. -/
theorem Acyclic.chain_of_link (hac : h.Acyclic) (hlink : h.Link o p) :
    h.chain o = o :: h.chain p := by
  have hlonger : h.chainUpTo (h.slots.size + 1 + 1) o = o :: h.chain p := by
    rw [chainUpTo, hlink, chain]
  rw [← hlonger]
  apply List.IsPrefix.eq_of_length_le
  · exact chainUpTo_prefix_of_le (Nat.le_succ _)
  · exact (hac.chainUpTo_within _ o).length_le

/-- Induction from the prototype of an object to the object. -/
theorem Acyclic.induction_up {motive : ObjectId → Prop} (hac : h.Acyclic)
    (step : ∀ o, (∀ p, h.Link o p → motive p) → motive o) (o : ObjectId) : motive o := by
  -- The chain gets shorter on the way up.
  induction hn : (h.chain o).length using Nat.strongRecOn generalizing o with
  | ind n ih =>
    refine step o fun p hlink => ih _ ?_ p rfl
    rw [← hn, hac.chain_of_link hlink]
    exact Nat.lt_succ_self _

/-- Where links lead to earlier slots only, they close no cycle. -/
theorem acyclic_of_descending
    (hdown : ∀ i < h.slots.size, (h.prototype? ⟨i⟩).all (·.index < i)) : h.Acyclic := by
  have hlink : ∀ {o p}, h.Link o p → p.index < o.index := by
    intro o p hlink
    have ho := hdown o.index (index_lt_of_isLive (isLive_of_link hlink))
    rw [show h.prototype? ⟨o.index⟩ = some p from hlink] at ho
    simpa using ho
  have hpath : ∀ {o p}, Relation.TransGen h.Link o p → p.index < o.index := by
    intro o p hpath
    induction hpath with
    | single hlast => exact hlink hlast
    | tail _ hlast ih => exact (hlink hlast).trans ih
  exact fun o hcycle => Nat.lt_irrefl _ (hpath hcycle)

/-! ## Slots that are shown -/

/-- The slot of an object, if it is enumerable. -/
def shown? (h : Heap) (o : ObjectId) (key : String) : Option Property :=
  (h.slot? o key).filter Property.isEnumerable

theorem shown?_eq_some_iff {key : String} {slot : Property} :
    h.shown? o key = some slot ↔ h.slot? o key = some slot ∧ slot.isEnumerable := by
  rw [shown?, Option.filter_eq_some_iff]

/-- The enumerable slot of a key that one meets first on the way up, with its owner. -/
inductive FirstShown (h : Heap) (key : String) : ObjectId → ObjectId → Property → Prop
  | own {o slot} : h.shown? o key = some slot → FirstShown h key o o slot
  | inherited {o p owner slot} : h.shown? o key = none → h.Link o p →
    FirstShown h key p owner slot → FirstShown h key o owner slot

/-- It is met as soon as any object further up shows the key. -/
theorem exists_firstShown_iff {key : String} :
    (∃ owner slot, h.FirstShown key o owner slot) ↔
      ∃ q, Relation.ReflTransGen h.Link o q ∧ (h.shown? q key).isSome := by
  constructor
  · rintro ⟨owner, slot, hfirst⟩
    induction hfirst with
    | own hshown => exact ⟨_, .refl, by rw [hshown]; rfl⟩
    | inherited _ hlink _ ih =>
      obtain ⟨q, hpath, hq⟩ := ih
      exact ⟨q, .head hlink hpath, hq⟩
  · rintro ⟨q, hpath, hq⟩
    induction hpath using Relation.ReflTransGen.head_induction_on with
    | refl =>
      obtain ⟨slot, hslot⟩ := Option.isSome_iff_exists.mp hq
      exact ⟨q, slot, .own hslot⟩
    | @head a _ hlink _ ih =>
      cases hshown : h.shown? a key with
      | some slot => exact ⟨a, slot, .own hshown⟩
      | none =>
        obtain ⟨owner, slot, hfirst⟩ := ih
        exact ⟨owner, slot, .inherited hshown hlink hfirst⟩

end Heap

/-! ## The first entry of each key -/

namespace Movie

/-- Entries with new keys are all kept, and are seen from then on. -/
theorem firstOfKey_append_of_new {entries rest : List (String × String)} {seen : List String}
    (hnodup : (entries.map Prod.fst).Nodup) (hnew : ∀ e ∈ entries, e.1 ∉ seen) :
    firstOfKey seen (entries ++ rest) =
      entries ++ firstOfKey ((entries.map Prod.fst).reverse ++ seen) rest := by
  induction entries generalizing seen with
  | nil => rfl
  | cons e entries ih =>
    rw [List.map_cons, List.nodup_cons] at hnodup
    have hhead : ¬ seen.contains e.1 := by simpa using hnew e List.mem_cons_self
    have hrest : ∀ e' ∈ entries, e'.1 ∉ e.1 :: seen := by
      intro e' he' hseen
      rcases List.mem_cons.mp hseen with heq | hseen
      · exact hnodup.1 (List.mem_map.mpr ⟨e', he', heq⟩)
      · exact hnew e' (List.mem_cons_of_mem _ he') hseen
    rw [List.cons_append, firstOfKey, if_neg hhead, ih hnodup.2 hrest]
    simp

/-- The keys that were seen before only drop entries. -/
theorem firstOfKey_eq_filter (entries : List (String × String)) {seen taken seen' : List String}
    (hseen : ∀ key, key ∈ seen' ↔ key ∈ taken ∨ key ∈ seen) :
    firstOfKey seen' entries = (firstOfKey seen entries).filter (·.1 ∉ taken) := by
  induction entries generalizing seen seen' with
  | nil => rfl
  | cons e entries ih =>
    have hseen_cons : ∀ key, key ∈ e.1 :: seen' ↔ key ∈ taken ∨ key ∈ e.1 :: seen := by
      intro key
      rw [List.mem_cons, List.mem_cons, hseen, or_left_comm]
    rw [firstOfKey, firstOfKey]
    by_cases hold : e.1 ∈ seen
    · rw [if_pos (by simp [hseen, hold]), if_pos (by simp [hold]), ih hseen]
    · rw [if_neg (by simp [hold] : ¬ seen.contains e.1 = true)]
      by_cases htaken : e.1 ∈ taken
      · have hagain : ∀ key, key ∈ seen' ↔ key ∈ taken ∨ key ∈ e.1 :: seen := by
          intro key
          rw [← hseen_cons, List.mem_cons, or_iff_right_of_imp]
          rintro rfl
          exact (hseen e.1).mpr (.inl htaken)
        rw [if_pos (by simp [hseen, htaken]), List.filter_cons_of_neg (by simp [htaken]),
          ih hagain]
      · rw [if_neg (by simp [hseen, htaken, hold]), List.filter_cons_of_pos (by simp [htaken]),
          ih hseen_cons]

/-! ## Shown names -/

/-- The enumerable slots of an object are what enumeration shows of it, under their names. -/
theorem mem_enumerable_iff {m : Movie} {o : ObjectId} {key name : String} :
    (key, name) ∈ m.enumerable o ↔
      ∃ slot, m.heap.shown? o key = some slot ∧ name = m.shownName key slot := by
  simp only [Heap.shown?_eq_some_iff]
  rw [enumerable]
  cases hx : m.heap.get? o with
  | none => simp [Heap.slot?, hx]
  | some x =>
    simp only [List.mem_map, List.mem_filter, Heap.slot?_eq hx, Table.find?_eq_some_iff]
    constructor
    · rintro ⟨⟨key', slot⟩, ⟨hmem, hslot⟩, heq⟩
      cases heq
      exact ⟨slot, ⟨hmem, hslot⟩, rfl⟩
    · rintro ⟨slot, ⟨hmem, hslot⟩, rfl⟩
      exact ⟨(key, slot), ⟨hmem, hslot⟩, rfl⟩

theorem mem_keys_enumerable_iff {m : Movie} {o : ObjectId} {key : String} :
    key ∈ (m.enumerable o).map Prod.fst ↔ (m.heap.shown? o key).isSome := by
  rw [List.mem_map, Option.isSome_iff_exists]
  constructor
  · rintro ⟨e, he, rfl⟩
    obtain ⟨slot, hslot, _⟩ := mem_enumerable_iff.mp he
    exact ⟨slot, hslot⟩
  · rintro ⟨slot, hslot⟩
    exact ⟨_, mem_enumerable_iff.mpr ⟨slot, hslot, rfl⟩, rfl⟩

theorem nodup_keys_enumerable (m : Movie) (o : ObjectId) :
    ((m.enumerable o).map Prod.fst).Nodup := by
  rw [enumerable]
  split
  · exact List.nodup_nil
  · rename_i x _
    rw [List.map_map]
    exact x.properties.nodup.sublist (List.filter_sublist.map _)

/-- Enumeration keeps the order of the table. -/
theorem keys_enumerable (m : Movie) (o : ObjectId) :
    (m.enumerable o).map Prod.fst =
      (m.heap.keysOf o).filter fun key => (m.heap.shown? o key).isSome := by
  rw [enumerable]
  cases hx : m.heap.get? o with
  | none =>
    rw [Heap.keysOf, hx]
    rfl
  | some x =>
    rw [Heap.keysOf_eq hx, Table.keys, List.filter_map, List.map_map]
    have hshown : ∀ e ∈ x.properties.entries,
        ((fun key => (m.heap.shown? o key).isSome) ∘ Prod.fst) e = e.2.isEnumerable := by
      intro e he
      have hslot : m.heap.slot? o e.1 = some e.2 :=
        (Heap.slot?_eq hx e.1).trans (Table.find?_eq_some_iff.mpr he)
      rw [Function.comp_apply, Heap.shown?, hslot, Option.filter_some]
      cases e.2.isEnumerable <;> rfl
    rw [List.filter_congr hshown]
    rfl

/-- The keys that enumeration shows along the prototype chain, with the names it shows for
them. -/
def shown (m : Movie) (o : ObjectId) : List (String × String) :=
  firstOfKey [] ((m.heap.chain o).flatMap m.enumerable)

theorem allKeys_eq_shown (m : Movie) (o : ObjectId) :
    m.allKeys o = (m.shown o).map Prod.snd := rfl

theorem shown_of_root {m : Movie} {o : ObjectId} (hroot : m.heap.prototype? o = none) :
    m.shown o = m.enumerable o := by
  rw [shown, Heap.chain_of_root hroot, List.flatMap_cons, List.flatMap_nil,
    firstOfKey_append_of_new (m.nodup_keys_enumerable o) fun _ _ => List.not_mem_nil, firstOfKey,
    List.append_nil]

/-- What the prototype shows comes after the own keys, less those. -/
theorem shown_of_link {m : Movie} (hac : m.heap.Acyclic) {o p : ObjectId}
    (hlink : m.heap.Link o p) :
    m.shown o =
      m.enumerable o ++ (m.shown p).filter fun e => (m.heap.shown? o e.1).isNone := by
  have hseen : ∀ key, key ∈ ((m.enumerable o).map Prod.fst).reverse ++ [] ↔
      key ∈ (m.enumerable o).map Prod.fst ∨ key ∈ ([] : List String) := by
    intro key
    rw [List.mem_append, List.mem_reverse]
  rw [shown, hac.chain_of_link hlink, List.flatMap_cons,
    firstOfKey_append_of_new (m.nodup_keys_enumerable o) fun _ _ => List.not_mem_nil,
    firstOfKey_eq_filter _ hseen, ← shown]
  congr 1
  apply List.filter_congr
  intro e _
  simp only [mem_keys_enumerable_iff]
  cases m.heap.shown? o e.1 <;> rfl

theorem nodup_keys_shown {m : Movie} (hac : m.heap.Acyclic) (o : ObjectId) :
    ((m.shown o).map Prod.fst).Nodup := by
  induction o using hac.induction_up with
  | step o ih =>
    cases hlink : m.heap.prototype? o with
    | none =>
      rw [shown_of_root hlink]
      exact m.nodup_keys_enumerable o
    | some p =>
      rw [shown_of_link hac hlink, List.map_append]
      refine (m.nodup_keys_enumerable o).append ?_ ?_
      · exact (ih p hlink).sublist (List.filter_sublist.map _)
      intro key hown hrest
      obtain ⟨e, he, rfl⟩ := List.mem_map.mp hrest
      have hnone := (List.mem_filter.mp he).2
      rw [mem_keys_enumerable_iff] at hown
      rw [Option.isNone_iff_eq_none.mp hnone] at hown
      cases hown

/-- A key is shown with the name of the first slot that shows it. -/
theorem mem_shown_iff {m : Movie} (hac : m.heap.Acyclic) {o : ObjectId} {key name : String} :
    (key, name) ∈ m.shown o ↔
      ∃ owner slot, m.heap.FirstShown key o owner slot ∧ name = m.shownName key slot := by
  induction o using hac.induction_up with
  | step o ih =>
    have hmem : (key, name) ∈ m.shown o ↔ (key, name) ∈ m.enumerable o ∨
        m.heap.shown? o key = none ∧ ∃ p, m.heap.Link o p ∧ (key, name) ∈ m.shown p := by
      cases hlink : m.heap.prototype? o with
      | none => simp [shown_of_root hlink, Heap.Link, hlink]
      | some p => simp [shown_of_link hac hlink, Heap.Link, hlink, and_comm]
    rw [hmem, mem_enumerable_iff]
    constructor
    · rintro (⟨slot, hslot, hname⟩ | ⟨hnone, p, hlink, hp⟩)
      · exact ⟨o, slot, .own hslot, hname⟩
      · obtain ⟨owner, slot, hfirst, hname⟩ := (ih p hlink).mp hp
        exact ⟨owner, slot, .inherited hnone hlink hfirst, hname⟩
    · rintro ⟨owner, slot, hfirst, hname⟩
      cases hfirst with
      | own hslot => exact .inl ⟨slot, hslot, hname⟩
      | inherited hnone hlink hfirst =>
        exact .inr ⟨hnone, _, hlink, (ih _ hlink).mpr ⟨owner, slot, hfirst, hname⟩⟩

theorem mem_keys_shown_iff {m : Movie} (hac : m.heap.Acyclic) (o : ObjectId) (key : String) :
    key ∈ (m.shown o).map Prod.fst ↔
      ∃ q, Relation.ReflTransGen m.heap.Link o q ∧ (m.heap.shown? q key).isSome := by
  rw [List.mem_map, ← Heap.exists_firstShown_iff]
  constructor
  · rintro ⟨e, he, rfl⟩
    obtain ⟨owner, slot, hfirst, _⟩ := (mem_shown_iff hac).mp he
    exact ⟨owner, slot, hfirst⟩
  · rintro ⟨owner, slot, hfirst⟩
    exact ⟨_, (mem_shown_iff hac).mpr ⟨owner, slot, hfirst, rfl⟩, rfl⟩

/-- Where no object is its own ancestor, the names along the chain of an object are its own, and
after them those of its prototype whose keys it does not show itself. So a key is shown once if some
object of the chain has an enumerable slot of it, and else not at all, and its name is that of the
first such object. -/
theorem allKeys_merge {m : Movie} (hac : m.heap.Acyclic) (o : ObjectId) :
    (∀ q, m.allKeys q = (m.shown q).map Prod.snd) ∧
    (m.heap.prototype? o = none → m.allKeys o = m.ownKeys o) ∧
    (∀ p, m.heap.prototype? o = some p →
      m.allKeys o = m.ownKeys o ++
        ((m.shown p).filter fun e => (m.heap.shown? o e.1).isNone).map Prod.snd) ∧
    ∀ key,
      ((m.shown o).map Prod.fst).count key ≤ 1 ∧
      (((m.shown o).map Prod.fst).count key = 1 ↔
        ∃ q, Relation.ReflTransGen m.heap.Link o q ∧
          ∃ slot, m.heap.slot? q key = some slot ∧ slot.isEnumerable) ∧
      ∀ name, (key, name) ∈ m.shown o ↔
        ∃ owner slot, m.heap.FirstShown key o owner slot ∧ name = m.shownName key slot := by
  refine ⟨fun q => rfl, fun hroot => ?_, fun p hlink => ?_, fun key => ⟨?_, ?_, fun name => ?_⟩⟩
  · rw [allKeys_eq_shown, shown_of_root hroot, ownKeys]
  · rw [allKeys_eq_shown, shown_of_link hac hlink, List.map_append, ownKeys]
  · exact List.nodup_iff_count_le_one.mp (nodup_keys_shown hac o) key
  · have hmem := mem_keys_shown_iff hac o key
    simp only [Option.isSome_iff_exists, Heap.shown?_eq_some_iff] at hmem
    rw [← hmem]
    exact ⟨fun hcount => List.count_pos_iff.mp (by omega),
      List.count_eq_one_of_mem (nodup_keys_shown hac o)⟩
  · exact mem_shown_iff hac

namespace Lineage

/-- Makes a parent with a hidden slot and a child that spells a name otherwise, below an object
that shows both keys. -/
def create : Edit (ObjectId × ObjectId) := do
  let elder ← createObject
  define elder "Age" (.data (.string "old") {})
  define elder "home" (.data (.string "hill") {})
  let parent ← createWithPrototype (some elder)
  define parent "AGE" (.data (.string "secret") .hidden)
  define parent "Trade" (.data (.string "smith") {})
  let child ← createWithPrototype (some parent)
  define child "HOME" (.data (.string "town") {})
  define child "name" (.data .null {})
  return (parent, child)

@[irreducible] def parent : ObjectId := (create (Movie.new { version := 6 })).1.1

@[irreducible] def child : ObjectId := (create (Movie.new { version := 6 })).1.2

/-- A new movie with them, in which case does not count. -/
@[irreducible] def movie : Movie := (create (Movie.new { version := 6 })).2

end Lineage

open Lineage in
/-- The child shows its own spelling of a key that its elder has too. The hidden slot of the parent
does not keep the age of the elder from being shown, once. -/
theorem allKeys_lineage :
    movie.heap.Acyclic ∧ movie.heap.prototype? child = some parent ∧
    movie.allKeys child = ["HOME", "name", "Trade", "Age"] ∧
    movie.shown parent = [("trade", "Trade"), ("age", "Age"), ("home", "home")] ∧
    movie.allKeys child = movie.ownKeys child ++
      ((movie.shown parent).filter fun e => (movie.heap.shown? child e.1).isNone).map Prod.snd ∧
    ((movie.shown child).map Prod.fst).count "age" = 1 ∧
    ∃ owner slot, movie.heap.FirstShown "age" child owner slot := by
  have hac : movie.heap.Acyclic := Heap.acyclic_of_descending (by decide +kernel)
  have hlink : movie.heap.prototype? child = some parent := by decide +kernel
  obtain ⟨_, _, hmerge, hkeys⟩ := allKeys_merge hac child
  obtain ⟨_, _, hfirst⟩ := hkeys "age"
  obtain ⟨owner, slot, hslot, _⟩ := (hfirst "Age").mp (by decide +kernel)
  exact ⟨hac, hlink, by decide +kernel, by decide +kernel, hmerge parent hlink, by decide +kernel,
    owner, slot, hslot⟩

end Movie

end ActionScript

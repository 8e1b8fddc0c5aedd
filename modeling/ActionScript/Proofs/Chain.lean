import Mathlib.Data.Finset.Card
import Mathlib.Data.Nat.Find
import Mathlib.Logic.Relation
import ActionScript.Proofs.Arena

/-! # Prototype chains

A walk along prototype links meets nothing new once it has made as many steps as the heap has
slots (`mem_chain_of_walk`), so the bounded chain shows everything that a longer one would. Where
no object is its own ancestor, a chain visits no object twice and ends by itself
(`Acyclic.chain_nodup`, `Acyclic.walk_ends`). -/

namespace ActionScript.Heap

variable {h h' : Heap} {o p q : ObjectId} {n k : Nat}

/-- The second object is the prototype of the first. -/
def Link (h : Heap) (o p : ObjectId) : Prop := h.prototype? o = some p

/-- The handle after the given number of steps along the prototype links. -/
def walk (h : Heap) : Nat → ObjectId → Option ObjectId
  | 0, o => some o
  | k + 1, o => (h.prototype? o).bind (h.walk k)

theorem walk_succ_of_link (hlink : h.Link o p) : h.walk (k + 1) o = h.walk k p := by
  rw [walk, hlink, Option.bind_some]

theorem walk_add (i j : Nat) (o : ObjectId) :
    h.walk (i + j) o = (h.walk i o).bind (h.walk j) := by
  induction i generalizing o with
  | zero => rw [Nat.zero_add, walk, Option.bind_some]
  | succ i ih =>
    rw [Nat.succ_add_eq_add_succ, Nat.add_succ, walk, walk, Option.bind_assoc]
    simp only [ih]

theorem isLive_of_link (hlink : h.Link o p) : h.isLive o := by
  rw [Link, prototype?, Option.bind_eq_some_iff] at hlink
  obtain ⟨object, hget, _⟩ := hlink
  exact isLive_of_get? hget

theorem mem_chainUpTo_iff : p ∈ h.chainUpTo n o ↔ ∃ k < n, h.walk k o = some p := by
  induction n generalizing o with
  | zero => simp [chainUpTo]
  | succ n ih =>
    rw [chainUpTo, List.mem_cons]
    constructor
    · rintro (rfl | hp)
      · exact ⟨0, Nat.zero_lt_succ n, rfl⟩
      · cases hproto : h.prototype? o with
        | none => simp [hproto] at hp
        | some q =>
          obtain ⟨k, hk, hwalk⟩ := ih.mp (by simpa [hproto] using hp)
          exact ⟨k + 1, Nat.succ_lt_succ hk, by rw [walk_succ_of_link hproto, hwalk]⟩
    · rintro ⟨k, hk, hwalk⟩
      cases k with
      | zero => exact .inl (by cases hwalk; rfl)
      | succ k =>
        rw [walk, Option.bind_eq_some_iff] at hwalk
        obtain ⟨q, hlink, hwalk⟩ := hwalk
        rw [hlink]
        exact .inr (ih.mpr ⟨k, Nat.lt_of_succ_lt_succ hk, hwalk⟩)

/-- All handles of a walk but the last are live. -/
theorem isLive_of_walk (hwalk : h.walk n o = some p) (hk : k < n) :
    ∃ q, h.walk k o = some q ∧ h.isLive q := by
  obtain ⟨j, rfl⟩ := Nat.exists_eq_add_of_lt hk
  rw [Nat.add_assoc, walk_add, Option.bind_eq_some_iff] at hwalk
  obtain ⟨q, hq, hrest⟩ := hwalk
  rw [walk, Option.bind_eq_some_iff] at hrest
  obtain ⟨r, hlink, _⟩ := hrest
  exact ⟨q, hq, isLive_of_link hlink⟩

/-- A walk that meets a handle twice has a detour. -/
theorem walk_shorten {i j : Nat} (hwalk : h.walk n o = some p) (hij : i < j) (hj : j ≤ n)
    (hsame : h.walk i o = h.walk j o) : h.walk (n - (j - i)) o = some p := by
  have hn : n = j + (n - j) := by omega
  have hm : n - (j - i) = i + (n - j) := by omega
  rw [hm, walk_add, hsame, ← walk_add, ← hn, hwalk]

/-- What a walk reaches, it reaches in as many steps as there are slots. -/
theorem walk_short (hn : 0 < n) (hwalk : h.walk n o = some p) :
    ∃ k, 0 < k ∧ k ≤ h.slots.size ∧ h.walk k o = some p := by
  classical
  have hex : ∃ k, 0 < k ∧ h.walk k o = some p := ⟨n, hn, hwalk⟩
  obtain ⟨hpos, hfind⟩ := Nat.find_spec hex
  refine ⟨Nat.find hex, hpos, ?_, hfind⟩
  -- The shortest such walk passes different live handles before its last step.
  let index (k : Nat) : Nat := ((h.walk k o).map ObjectId.index).getD 0
  have hlive : ∀ k < Nat.find hex, ∃ q, h.walk k o = some q ∧ h.isLive q :=
    fun k hk => isLive_of_walk hfind hk
  have hinj : Set.InjOn index (Finset.range (Nat.find hex)) := by
    have hlt : ∀ i j, i < j → j < Nat.find hex → index i ≠ index j := by
      intro i j hij hj heq
      obtain ⟨a, ha, _⟩ := hlive i (hij.trans hj)
      obtain ⟨b, hb, _⟩ := hlive j hj
      have hab : a.index = b.index := by simpa [index, ha, hb] using heq
      have hsame : h.walk i o = h.walk j o := by
        rw [ha, hb]
        cases a; cases b; cases hab
        rfl
      exact Nat.find_min hex (m := Nat.find hex - (j - i)) (by omega)
        ⟨by omega, walk_shorten hfind hij hj.le hsame⟩
    intro i hi j hj heq
    rw [Finset.coe_range, Set.mem_Iio] at hi hj
    rcases Nat.lt_trichotomy i j with hij | hij | hij
    · exact (hlt i j hij hj heq).elim
    · exact hij
    · exact (hlt j i hij hi heq.symm).elim
  have hmaps : ∀ k ∈ Finset.range (Nat.find hex), index k ∈ Finset.range h.slots.size := by
    intro k hk
    obtain ⟨q, hq, hq'⟩ := hlive k (Finset.mem_range.mp hk)
    simpa [index, hq] using index_lt_of_isLive hq'
  simpa using Finset.card_le_card_of_injOn index hmaps hinj

theorem mem_chain_of_walk (hwalk : h.walk n o = some p) : p ∈ h.chain o := by
  rw [chain, mem_chainUpTo_iff]
  rcases Nat.eq_zero_or_pos n with rfl | hn
  · exact ⟨0, Nat.succ_pos _, hwalk⟩
  · obtain ⟨k, _, hk, hwalk⟩ := walk_short hn hwalk
    exact ⟨k, Nat.lt_succ_of_le hk, hwalk⟩

theorem mem_chain_iff : p ∈ h.chain o ↔ ∃ k, h.walk k o = some p :=
  ⟨fun hp => (mem_chainUpTo_iff.mp hp).imp fun _ hk => hk.2,
    fun ⟨_, hwalk⟩ => mem_chain_of_walk hwalk⟩

theorem mem_chain_of_link (hp : p ∈ h.chain o) (hlink : h.Link p q) : q ∈ h.chain o := by
  obtain ⟨k, hk⟩ := mem_chain_iff.mp hp
  refine mem_chain_of_walk (n := k + 1) ?_
  rw [walk_add, hk, Option.bind_some, walk, hlink]
  rfl

/-- Whether an object stands above another is a matter of walks of any length. -/
theorem isPrototypeOf_iff : h.isPrototypeOf o p ↔ ∃ k, 0 < k ∧ h.walk k p = some o := by
  rw [isPrototypeOf, List.contains_iff_mem, chain, chainUpTo, List.tail_cons]
  cases hproto : h.prototype? p with
  | none =>
    simp only [List.not_mem_nil, false_iff, not_exists, not_and]
    rintro k hk
    obtain ⟨j, rfl⟩ := Nat.exists_eq_succ_of_ne_zero hk.ne'
    rw [walk, hproto]
    intro hwalk
    cases hwalk
  | some q =>
    simp only [mem_chainUpTo_iff]
    constructor
    · rintro ⟨k, _, hwalk⟩
      exact ⟨k + 1, Nat.succ_pos k, by rw [walk_succ_of_link hproto, hwalk]⟩
    · rintro ⟨k, hk, hwalk⟩
      obtain ⟨j, hj, hle, hwalk⟩ := walk_short hk hwalk
      obtain ⟨i, rfl⟩ := Nat.exists_eq_succ_of_ne_zero hj.ne'
      exact ⟨i, hle, by rw [← walk_succ_of_link hproto, hwalk]⟩

theorem chainUpTo_prefix_of_le {m : Nat} (hle : n ≤ m) : h.chainUpTo n o <+: h.chainUpTo m o := by
  induction n generalizing m o with
  | zero => exact List.nil_prefix
  | succ n ih =>
    obtain ⟨m, rfl⟩ :=
      Nat.exists_eq_succ_of_ne_zero (Nat.ne_of_gt (Nat.lt_of_lt_of_le n.succ_pos hle))
    rw [chainUpTo, chainUpTo, List.prefix_cons_inj]
    cases h.prototype? o with
    | none => exact List.prefix_refl _
    | some p => exact ih (Nat.le_of_succ_le_succ hle)

/-- A longer walk than the chain only repeats it. -/
theorem chainUpTo_eq_append (hn : h.slots.size < n) :
    ∃ rest, h.chainUpTo n o = h.chain o ++ rest ∧ ∀ p ∈ rest, p ∈ h.chain o := by
  obtain ⟨rest, hrest⟩ := h.chainUpTo_prefix_of_le (o := o) (Nat.succ_le_of_lt hn)
  refine ⟨rest, hrest.symm, fun p hp => ?_⟩
  have hmem : p ∈ h.chainUpTo n o := hrest ▸ List.mem_append_right _ hp
  obtain ⟨k, _, hwalk⟩ := mem_chainUpTo_iff.mp hmem
  exact mem_chain_of_walk hwalk

/-! ## Chains without cycles -/

/-- No object is its own ancestor. -/
def Acyclic (h : Heap) : Prop := ∀ o, ¬ Relation.TransGen h.Link o o

theorem transGen_of_walk (hwalk : h.walk (k + 1) o = some p) : Relation.TransGen h.Link o p := by
  induction k generalizing o with
  | zero =>
    rw [walk, Option.bind_eq_some_iff] at hwalk
    obtain ⟨q, hlink, hq⟩ := hwalk
    cases hq
    exact .single hlink
  | succ k ih =>
    rw [walk, Option.bind_eq_some_iff] at hwalk
    obtain ⟨q, hlink, hwalk⟩ := hwalk
    exact .head hlink (ih hwalk)

theorem Acyclic.chainUpTo_nodup (hac : h.Acyclic) (n : Nat) (o : ObjectId) :
    (h.chainUpTo n o).Nodup := by
  induction n generalizing o with
  | zero => exact List.nodup_nil
  | succ n ih =>
    rw [chainUpTo, List.nodup_cons]
    cases hproto : h.prototype? o with
    | none => exact ⟨List.not_mem_nil, List.nodup_nil⟩
    | some p =>
      refine ⟨fun hmem => ?_, ih p⟩
      obtain ⟨k, _, hwalk⟩ := mem_chainUpTo_iff.mp hmem
      exact hac o (transGen_of_walk (k := k) (by rw [walk_succ_of_link hproto, hwalk]))

theorem Acyclic.chain_nodup (hac : h.Acyclic) (o : ObjectId) : (h.chain o).Nodup :=
  hac.chainUpTo_nodup _ o

/-- A walk of any length stays within the chain, so it ends. -/
theorem Acyclic.chainUpTo_within (hac : h.Acyclic) (n : Nat) (o : ObjectId) :
    h.chainUpTo n o <+: h.chain o := by
  rcases Nat.lt_or_ge h.slots.size n with hn | hn
  · obtain ⟨rest, hrest, hmem⟩ := chainUpTo_eq_append (o := o) hn
    have hnodup := hac.chainUpTo_nodup n o
    rw [hrest, List.nodup_append'] at hnodup
    cases rest with
    | nil => rw [hrest, List.append_nil]
    | cons p rest => exact (hnodup.2.2 (hmem p List.mem_cons_self) List.mem_cons_self).elim
  · exact chainUpTo_prefix_of_le (Nat.le_succ_of_le hn)

theorem length_chainUpTo_le (n : Nat) (o : ObjectId) : (h.chainUpTo n o).length ≤ n := by
  induction n generalizing o with
  | zero => exact Nat.le_refl _
  | succ n ih =>
    rw [chainUpTo, List.length_cons]
    cases h.prototype? o with
    | none => exact Nat.succ_le_succ (Nat.zero_le n)
    | some p => exact Nat.succ_le_succ (ih p)

theorem length_chainUpTo_of_walk (hwalk : h.walk n o = some p) :
    (h.chainUpTo (n + 1) o).length = n + 1 := by
  induction n generalizing o with
  | zero =>
    rw [chainUpTo, List.length_cons]
    cases h.prototype? o <;> rfl
  | succ n ih =>
    rw [walk, Option.bind_eq_some_iff] at hwalk
    obtain ⟨q, hlink, hwalk⟩ := hwalk
    rw [chainUpTo, hlink, List.length_cons, ih hwalk]

/-- A walk leaves every object behind before it has made more steps than there are slots. -/
theorem Acyclic.walk_ends (hac : h.Acyclic) (o : ObjectId) :
    h.walk (h.slots.size + 1) o = none := by
  cases hwalk : h.walk (h.slots.size + 1) o with
  | none => rfl
  | some p =>
    have hlong := length_chainUpTo_of_walk hwalk
    have hshort := (hac.chainUpTo_within (h.slots.size + 1 + 1) o).length_le
    have hbound := h.length_chainUpTo_le (h.slots.size + 1) o
    rw [chain] at hshort
    omega

theorem Acyclic.mono (hac : h.Acyclic) (hlink : ∀ o p, h'.Link o p → h.Link o p) : h'.Acyclic :=
  fun o hcycle => hac o (Relation.TransGen.mono hlink _ _ hcycle)

/-- A new object above which no cycle stands closes none, if nothing is linked to it yet. -/
theorem Acyclic.fresh (hac : h.Acyclic) (hlink : ∀ o p, h'.Link o p → o = q ∨ h.Link o p)
    (hq : ∀ o, ¬ h'.Link o q) : h'.Acyclic := by
  have hold : ∀ {o p}, Relation.TransGen h'.Link o p → o ≠ q → Relation.TransGen h.Link o p := by
    intro o p hpath ho
    induction hpath with
    | single hlast => exact .single ((hlink _ _ hlast).resolve_left ho)
    | tail hpath hlast ih =>
      refine .tail ih ((hlink _ _ hlast).resolve_left ?_)
      rintro rfl
      obtain ⟨r, _, hr⟩ := Relation.TransGen.tail'_iff.mp hpath
      exact hq r hr
  intro o hcycle
  refine hac o (hold hcycle ?_)
  rintro rfl
  obtain ⟨r, _, hr⟩ := Relation.TransGen.tail'_iff.mp hcycle
  exact hq r hr

/-- Linking an object to one whose chain does not contain it closes no cycle. -/
theorem Acyclic.relink (hac : h.Acyclic)
    (hlink : ∀ a b, h'.Link a b → (a = o ∧ b = p) ∨ (a ≠ o ∧ h.Link a b))
    (hp : o ∉ h.chain p) : h'.Acyclic := by
  -- The chain of `p` has no way to `o`, so links from its objects are the old ones.
  have hstay : ∀ {a b}, a ∈ h.chain p → h'.Link a b → h.Link a b := by
    intro a b ha hab
    rcases hlink a b hab with ⟨rfl, _⟩ | ⟨_, hab⟩
    · exact (hp ha).elim
    · exact hab
  have hwithin : ∀ {a b}, Relation.TransGen h'.Link a b → a ∈ h.chain p →
      Relation.TransGen h.Link a b ∧ b ∈ h.chain p := by
    intro a b hpath ha
    induction hpath with
    | single hlast => exact ⟨.single (hstay ha hlast), mem_chain_of_link ha (hstay ha hlast)⟩
    | tail _ hlast ih =>
      exact ⟨.tail ih.1 (hstay ih.2 hlast), mem_chain_of_link ih.2 (hstay ih.2 hlast)⟩
  have hsplit : ∀ {a b}, Relation.TransGen h'.Link a b →
      Relation.TransGen h.Link a b ∨ b ∈ h.chain p := by
    intro a b hpath
    induction hpath with
    | single hlast =>
      rcases hlink _ _ hlast with ⟨rfl, rfl⟩ | ⟨_, hlast⟩
      · exact .inr (mem_chain_of_walk (n := 0) rfl)
      · exact .inl (.single hlast)
    | tail _ hlast ih =>
      rcases hlink _ _ hlast with ⟨rfl, rfl⟩ | ⟨_, hlast⟩
      · exact .inr (mem_chain_of_walk (n := 0) rfl)
      · rcases ih with ih | ih
        · exact .inl (.tail ih hlast)
        · exact .inr (mem_chain_of_link ih hlast)
  intro a hcycle
  rcases hsplit hcycle with hold | ha
  · exact hac a hold
  · exact hac a (hwithin hcycle ha).1

/-! ## Changes that close no cycle -/

theorem link_modify_iff {f : Object → Object} (hf : ∀ x, (f x).prototype = x.prototype)
    {p q : ObjectId} : (h.modify o f).Link p q ↔ h.Link p q := by
  rw [Link, Link, prototype?_modify hf]

/-- A new object whose prototype is live closes no cycle if nothing refers to its handle. -/
theorem Acyclic.allocate (hac : h.Acyclic) (ha : h.Arena) {x : Object}
    (hx : ∀ {p}, x.prototype = some p → h.isLive p)
    (hstored : ∀ {p q}, h.Link p q → h.isLive q) : (h.allocate x).2.Acyclic := by
  have hdead := ha.not_isLive_allocate x
  refine hac.fresh (q := (h.allocate x).1) (fun p q hlink => ?_) fun p hlink => ?_
  · rw [Link, prototype?, ha.get?_allocate] at hlink
    by_cases hp : p = (h.allocate x).1
    · exact .inl hp
    · rw [if_neg hp] at hlink
      exact .inr hlink
  · rw [Link, prototype?, ha.get?_allocate] at hlink
    by_cases hp : p = (h.allocate x).1
    · rw [if_pos hp] at hlink
      exact hdead (hx hlink)
    · rw [if_neg hp] at hlink
      exact hdead (hstored hlink)

theorem Acyclic.setPrototype (hac : h.Acyclic) (prototype : Option ObjectId) :
    (h.setPrototype o prototype).2.Acyclic := by
  rw [Heap.setPrototype]
  split
  · exact hac
  · rename_i hcycle
    have hlink : ∀ a b, (h.modify o fun x => { x with prototype }).Link a b →
        (a = o ∧ prototype = some b) ∨ (a ≠ o ∧ h.Link a b) := by
      intro a b hab
      rw [Link, prototype?, get?_modify] at hab
      by_cases ha : a = o
      · rw [if_pos ha, Option.bind_eq_some_iff] at hab
        obtain ⟨x, hx, hb⟩ := hab
        rw [Option.map_eq_some_iff] at hx
        obtain ⟨_, _, rfl⟩ := hx
        exact .inl ⟨ha, hb⟩
      · rw [if_neg ha] at hab
        exact .inr ⟨ha, hab⟩
    cases prototype with
    | none =>
      refine hac.mono fun a b hab => ?_
      rcases hlink a b hab with ⟨_, hb⟩ | ⟨_, hab⟩
      · cases hb
      · exact hab
    | some p =>
      rw [Option.any_some, List.contains_iff_mem] at hcycle
      refine hac.relink (o := o) (p := p) (fun a b hab => ?_) hcycle
      rcases hlink a b hab with ⟨ha, hb⟩ | hab
      · exact .inl ⟨ha, (Option.some.inj hb).symm⟩
      · exact .inr hab

end ActionScript.Heap

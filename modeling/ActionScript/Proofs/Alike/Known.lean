import ActionScript.Proofs.Alike.Movie
import ActionScript.Proofs.Alike.Rename

/-! # Movies that are alike to themselves

Where handles with a property stand for themselves and no others stand for anything, a movie is
alike to itself if every handle that it holds has the property, and every handle that is stored in
an object with the property. Data that is alike under such a matching is equal. -/

namespace ActionScript

/-- The handles with a property stand for themselves. -/
def Matching.known (k : ObjectId → Prop) : Matching where
  handle o p := o = p ∧ k o
  spelling := Eq

variable {k k' : ObjectId → Prop}

theorem Matching.known_le_iff :
    Matching.known k ≤ Matching.known k' ↔ ∀ o, k o → k' o :=
  ⟨fun h o ho => (h.1 (o := o) ⟨rfl, ho⟩).2, fun h => ⟨fun ho => ⟨ho.1, h _ ho.2⟩, id⟩⟩

theorem Matching.known_biUnique : Relator.BiUnique (Matching.known k).handle :=
  ⟨fun _ _ _ h h' => h.1.trans h'.1.symm, fun _ _ _ h h' => h.1.symm.trans h'.1⟩

/-! ## What is alike under known handles is equal -/

theorem known_eq_id {o p : ObjectId} (h : (Matching.known k).handle o p) : p = id o := h.1.symm

theorem Value.Alike.eq_of_known {v w : Value} (h : Value.Alike (.known k) v w) : v = w := by
  rw [h.eq_rename known_eq_id, rename_id]

theorem values_eq_of_known {vs ws : List Value}
    (h : List.Forall₂ (Value.Alike (.known k)) vs ws) : vs = ws := by
  rw [← List.forall₂_eq_eq_eq]
  exact h.imp fun _ _ => Value.Alike.eq_of_known

theorem Property.Alike.eq_of_known {p q : Property} (h : Property.Alike (.known k) p q) :
    p = q := by
  rw [h.eq_rename known_eq_id id, rename_id]

theorem optionRel_eq_of_known {x y : Option ObjectId}
    (h : Option.Rel (Matching.known k).handle x y) : x = y :=
  optionRel_eq (optionRel_mono And.left h)

theorem Table.Alike.eq {κ ν : Type} {t t' : Table κ ν} (h : Table.Alike Eq Eq t t') : t = t' := by
  obtain ⟨entries, _⟩ := t
  obtain ⟨entries', _⟩ := t'
  have hentries : entries = entries' := by
    rw [← List.forall₂_eq_eq_eq]
    exact List.Forall₂.imp (fun _ _ he => Prod.ext he.1 he.2) h
  subst hentries
  rfl

theorem Object.Alike.eq_of_known {x y : Object} (h : Object.Alike (.known k) x y) : x = y := by
  have hproperties := (h.properties.mono id Property.Alike.eq_of_known).eq
  have hprototype := optionRel_eq_of_known h.prototype
  obtain ⟨_, _, hkind, hblocked, hcolorBlocked⟩ := h
  obtain ⟨_, _, _, _, _⟩ := x
  obtain ⟨_, _, _, _, _⟩ := y
  dsimp only at hproperties hprototype hkind hblocked hcolorBlocked
  subst hproperties hprototype hkind hblocked hcolorBlocked
  rfl

theorem Intrinsics.all_injective {i j : Intrinsics} (h : i.all = j.all) : i = j := by
  cases i
  cases j
  simp only [Intrinsics.all, List.cons.injEq] at h
  simp only [Intrinsics.mk.injEq]
  tauto

/-- Where handles stand for themselves only, alike movies differ in their heaps only. -/
theorem Movie.Alike.withHeap_eq {r : Matching} (hr : ∀ {o p}, r.handle o p → o = p)
    {m m' : Movie} (h : Movie.Alike r m m') (heap : Heap) :
    { m with heap := heap } = { m' with heap := heap } := by
  have hkeys : ∀ {key key'}, ClassKey.Alike r key key' → key = key' := by
    rintro _ _ (_ | ho)
    · rfl
    · rw [hr ho]
  have hintrinsics : m.intrinsics = m'.intrinsics := by
    apply Intrinsics.all_injective
    rw [← List.forall₂_eq_eq_eq]
    exact h.intrinsics.imp fun _ _ => hr
  have hglobal : m.global = m'.global := hr h.global
  have hpins := (h.pins.mono hr id).eq
  have hstatics := (h.staticStates.mono hkeys hr).eq
  have hinitializers := (h.initializers.mono hr id).eq
  have hclasses := (h.classes.mono id hr).eq
  obtain ⟨_, _, hsettings, hexecutor, hobservers, hactions, hrandom, hsymbols, hdescriptions, _⟩ :=
    h
  obtain ⟨_, _, _, _, _, _, _, _, _, ⟨_, _, _⟩, _, _⟩ := m
  obtain ⟨_, _, _, _, _, _, _, _, _, ⟨_, _, _⟩, _, _⟩ := m'
  simp_all only

theorem Movie.Alike.eq_of_known {m m' : Movie} (h : Movie.Alike (.known k) m m')
    (hheap : m.heap = m'.heap) : m = m' := by
  have heq := h.withHeap_eq And.left m.heap
  nth_rewrite 2 [hheap] at heq
  exact heq

/-! ## Movies that know their handles -/

theorem value_known {v : Value} {r : Matching} (h : ∀ o ∈ v.handles, r.handle o o) :
    Value.Alike r v v := by
  have hv := value_alike_rename (π := id) h
  rwa [Value.rename_id] at hv

theorem error_known {e : Error} {r : Matching} (h : ∀ o ∈ e.handles, r.handle o o) :
    Error.Alike r e e := by
  cases e with
  | thrown v => exact .thrown (value_known h)
  | _ => exact .refl nofun

theorem values_known {vs : List Value} {r : Matching}
    (h : ∀ o ∈ vs.flatMap Value.handles, r.handle o o) : List.Forall₂ (Value.Alike r) vs vs :=
  List.forall₂_same.mpr fun v hv =>
    value_known fun o ho => h o (List.mem_flatMap.mpr ⟨v, hv, ho⟩)

theorem Object.alike_known {x : Object} (h : ∀ p, x.Refers p → k p) :
    Object.Alike (.known k) x x := by
  refine ⟨List.forall₂_same.mpr fun e he => ⟨rfl, ?_⟩, ?_, rfl, rfl, rfl⟩
  · have hp := property_alike_rename (p := e.2) (r := .known k) (π := id) (fun _ => rfl) ?_
    · rwa [Property.rename_id] at hp
    · intro o ho
      refine ⟨rfl, h o (Object.mem_references_iff.mp ?_)⟩
      refine List.mem_append_right _ (List.mem_flatMap.mpr ⟨e.2, ?_, ho⟩)
      exact List.mem_map_of_mem he
  · cases hp : x.prototype with
    | none => exact .none
    | some p => exact .some ⟨rfl, h p (.prototype hp)⟩

/-- An object that is alike to another refers to known objects only. -/
theorem Object.Alike.known_of_refers {x y : Object} (h : Object.Alike (.known k) x y)
    {p : ObjectId} (hp : x.Refers p) : k p := by
  have hslot : ∀ {key slot}, x.properties.find? key = some slot →
      Property.Alike (.known k) slot slot := by
    intro key slot hslot
    rcases optionRel_cases (h.find? key) with ⟨a, b, ha, _, hab⟩ | ⟨hnone, _⟩
    · cases hslot.symm.trans ha
      have heq := hab.eq_of_known
      subst heq
      exact hab
    · cases hslot.symm.trans hnone
  have hknown : ∀ {a b : Option ObjectId}, Option.Rel (Matching.known k).handle a b → a = some p →
      k p := by
    intro a b hab ha
    subst ha
    cases hab with
    | some hp => exact hp.2
  have hvalue : ∀ {v w : Value}, Value.Alike (.known k) v w → v = .object p → k p :=
    fun hv hp => hknown hv.object? (Value.object?_eq_some_iff.mpr hp)
  have hwatcher : ∀ {slot : Property} {w}, Property.Alike (.known k) slot slot →
      slot.watcher = some w → Watcher.Alike (.known k) w w := by
    intro slot w hslot hw
    have halike := hslot.watcher
    rw [hw] at halike
    cases halike with
    | some hw => exact hw
  cases hp with
  | prototype hp => exact hknown h.prototype hp
  | value hs hp => exact hvalue (hslot hs).value hp
  | getter hs hp => exact hknown (hslot hs).getter hp
  | setter hs hp => exact hknown (hslot hs).setter hp
  | callback hs hw hp => exact hp ▸ (hwatcher (hslot hs) hw).callback.2
  | userData hs hw hp => exact hvalue (hwatcher (hslot hs) hw).userData hp

/-- A movie whose objects with the property refer to such objects only is alike to any movie that
has the same objects with the property. -/
theorem Movie.alike_known {m : Movie} {h : Heap} (hholds : ∀ {o}, m.Holds o → k o)
    (hrefers : ∀ {o object p}, k o → m.heap.get? o = some object → object.Refers p → k p)
    (hsame : ∀ {o}, k o → h.get? o = m.heap.get? o) :
    Movie.Alike (.known k) m { m with heap := h } := by
  have hentries : ∀ {κ ν : Type} {a : κ → κ → Prop} {b : ν → ν → Prop} (t : Table κ ν),
      (∀ key ∈ t.keys, a key key) → (∀ v ∈ t.values, b v v) → Table.Alike a b t t := by
    intro κ ν a b t ha hb
    refine List.forall₂_same.mpr fun e he => ⟨ha _ ?_, hb _ ?_⟩
    · exact List.mem_map_of_mem he
    · exact List.mem_map_of_mem he
  refine {
    handles := Matching.known_biUnique
    spellings := fun _ => rfl
    settings := rfl
    executor := rfl
    observers := rfl
    actions := rfl
    random := rfl
    symbols := rfl
    descriptions := rfl
    intrinsics := List.forall₂_same.mpr fun o ho => ⟨rfl, hholds (.intrinsic ho)⟩
    global := ⟨rfl, hholds (.global rfl)⟩
    staticStates := hentries _ (fun key hkey => ?_) fun o ho => ?_
    initializers := hentries _ (fun o ho => ?_) fun _ _ => rfl
    classes := hentries _ (fun _ _ => rfl) fun o ho => ?_
    pins := hentries _ (fun o ho => ?_) fun _ _ => rfl
    objects := fun {o o'} ho => ?_ }
  · cases key with
    | host => exact .host
    | object o => exact .object ⟨rfl, hholds (.staticClass (Table.isSome_find?_iff.mpr hkey))⟩
  · obtain ⟨key, hkey⟩ := Table.mem_values_iff.mp ho
    exact ⟨rfl, hholds (.staticState hkey)⟩
  · exact ⟨rfl, hholds (.initializer (Table.isSome_find?_iff.mpr ho))⟩
  · obtain ⟨symbol, hsymbol⟩ := Table.mem_values_iff.mp ho
    exact ⟨rfl, hholds (.symbolClass hsymbol)⟩
  · exact ⟨rfl, hholds (.pin (Table.isSome_find?_iff.mpr ho))⟩
  · obtain ⟨rfl, ho⟩ := ho
    show Option.Rel _ (m.heap.get? o) (h.get? o)
    rw [hsame ho]
    cases hget : m.heap.get? o with
    | none => exact .none
    | some object => exact .some (Object.alike_known fun p hp => hrefers ho hget hp)

/-- A movie is alike to itself if all handles are known. -/
theorem Movie.alike_known_all (hk : ∀ o, k o) (m : Movie) : Movie.Alike (.known k) m m :=
  Movie.alike_known (h := m.heap) (fun _ => hk _) (fun _ _ _ => hk _) fun _ => rfl

theorem exists_of_forall₂ {α β : Type} {p : α → β → Prop} {xs : List α} {ys : List β}
    (h : List.Forall₂ p xs ys) {a : α} (ha : a ∈ xs) : ∃ b, p a b := by
  induction h with
  | nil => cases ha
  | cons hxy _ ih =>
    rcases List.mem_cons.mp ha with rfl | ha
    · exact ⟨_, hxy⟩
    · exact ih ha

theorem Movie.Alike.known_of_holds {m m' : Movie} (h : Movie.Alike (.known k) m m')
    {o : ObjectId} (ho : m.Holds o) : k o := by
  have hmem : ∀ {os os' : List ObjectId}, List.Forall₂ (Matching.known k).handle os os' →
      o ∈ os → k o := fun hos ho => (exists_of_forall₂ hos ho).choose_spec.2
  cases ho with
  | intrinsic ho => exact hmem h.intrinsics ho
  | global ho => exact ho ▸ h.global.2
  | staticState ho => exact hmem h.staticStates.values (Table.mem_values_iff.mpr ⟨_, ho⟩)
  | staticClass ho =>
    obtain ⟨_, hkey⟩ := exists_of_forall₂ h.staticStates.keys (Table.isSome_find?_iff.mp ho)
    cases hkey with
    | object ho => exact ho.2
  | initializer ho => exact hmem h.initializers.keys (Table.isSome_find?_iff.mp ho)
  | symbolClass ho => exact hmem h.classes.values (Table.mem_values_iff.mpr ⟨_, ho⟩)
  | pin ho => exact hmem h.pins.keys (Table.isSome_find?_iff.mp ho)

end ActionScript

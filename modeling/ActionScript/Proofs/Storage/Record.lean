import ActionScript.Proofs.ArrayLength
import ActionScript.Proofs.HeapEdits
import ActionScript.Proofs.Storage.Descriptor
import ActionScript.Proofs.Table
import ActionScript.Storage.Record

/-! # Coherent records

A record is coherent if its list holds each key of its map once and nothing else. Every operation on
a record keeps it so (`Record.Coherent.step`), and what it does to the order is either to drop keys
or to add one at the end (`Record.Step.order`). Beside a table that it stands for, a record is
changed by each operation as the table is (`Record.Holds`). -/

namespace ActionScript

namespace Record

variable {x y : Record} {key : String} {d : Descriptor}

/-! ## Lookup -/

/-- Inserting gives the key its descriptor and leaves all others. -/
theorem getElem?_insertProperty (x : Record) (key : String) (d : Descriptor) (key' : String) :
    (x.insertProperty key d).properties[key']? =
      if key' = key then some d else x.properties[key']? := by
  show (x.properties.insert key d)[key']? = _
  rw [Std.HashMap.getElem?_insert]
  by_cases h : key = key'
  · simp [h]
  · simp [h, Ne.symm h]

/-- Removing takes the key away and leaves all others. -/
theorem getElem?_removeProperty (x : Record) (key key' : String) :
    (x.removeProperty key).2.properties[key']? =
      if key' = key then none else x.properties[key']? := by
  show (x.properties.erase key)[key']? = _
  rw [Std.HashMap.getElem?_erase]
  by_cases h : key = key'
  · simp [h]
  · simp [h, Ne.symm h]

/-- Updating changes the descriptor of the key, if it has one. -/
theorem getElem?_updateProperty (x : Record) (key : String) (f : Descriptor → Descriptor)
    (key' : String) : (x.updateProperty key f).properties[key']? =
      if key' = key then x.properties[key']?.map f else x.properties[key']? := by
  rw [updateProperty, Std.HashMap.getElem?_modify]
  by_cases h : key = key'
  · simp [h]
  · simp [h, Ne.symm h]

theorem mem_iff_isSome : key ∈ x.properties ↔ (x.properties[key]?).isSome :=
  Std.HashMap.mem_iff_isSome_getElem?

/-- A key that is inserted again keeps its place. -/
theorem order_insertProperty_of_mem (h : key ∈ x.properties) (d : Descriptor) :
    (x.insertProperty key d).order = x.order :=
  if_pos (Std.HashMap.mem_iff_contains.mp h)

/-- A key inserted for the first time goes to the end. -/
theorem order_insertProperty_of_not_mem (h : key ∉ x.properties) (d : Descriptor) :
    (x.insertProperty key d).order = x.order ++ [key] :=
  if_neg fun hmem => h (Std.HashMap.mem_iff_contains.mpr hmem)

/-- A removed key leaves the order of the others. -/
theorem order_removeProperty_of_mem (h : key ∈ x.properties) :
    (x.removeProperty key).2.order = x.order.filter (· ≠ key) :=
  if_pos (mem_iff_isSome.mp h)

theorem order_removeProperty_of_not_mem (h : key ∉ x.properties) :
    (x.removeProperty key).2.order = x.order :=
  if_neg fun hmem => h (mem_iff_isSome.mpr hmem)

/-! ## Coherence -/

/-- The order and the map of a record are in step, and its descriptors come from the operations. -/
structure Coherent (x : Record) : Prop where
  nodup : x.order.Nodup
  mem_order : ∀ {key}, key ∈ x.order ↔ key ∈ x.properties
  made : ∀ {key : String} {d : Descriptor}, x.properties[key]? = some d → d.Made

/-- A record starts coherent: it is empty. -/
theorem coherent_new (prototype : Option ObjectId) (kind : Kind) :
    (new prototype kind).Coherent where
  nodup := List.nodup_nil
  mem_order := by simp [new]
  made := by simp [new]

/-- The order grows with the map, and only by keys it lacks. -/
theorem Coherent.insertProperty (h : x.Coherent) (key : String) (hd : d.Made) :
    (x.insertProperty key d).Coherent where
  nodup := by
    by_cases hkey : key ∈ x.properties
    · rw [order_insertProperty_of_mem hkey]
      exact h.nodup
    · rw [order_insertProperty_of_not_mem hkey]
      refine List.nodup_append'.mpr ⟨h.nodup, List.nodup_singleton key, fun k hk hk' => ?_⟩
      rw [List.mem_singleton.mp hk'] at hk
      exact hkey (h.mem_order.mp hk)
  mem_order := by
    intro k
    rw [mem_iff_isSome, getElem?_insertProperty]
    by_cases hkey : key ∈ x.properties
    · rw [order_insertProperty_of_mem hkey, h.mem_order]
      by_cases hk : k = key
      · simp [hk, hkey]
      · rw [if_neg hk, mem_iff_isSome]
    · rw [order_insertProperty_of_not_mem hkey, List.mem_append, h.mem_order]
      by_cases hk : k = key
      · simp [hk]
      · simp [hk]
  made := by
    intro k d' hd'
    rw [getElem?_insertProperty] at hd'
    split at hd'
    · cases hd'
      exact hd
    · exact h.made hd'

/-- The order shrinks with the map. -/
theorem Coherent.removeProperty (h : x.Coherent) (key : String) :
    (x.removeProperty key).2.Coherent where
  nodup := by
    by_cases hkey : key ∈ x.properties
    · rw [order_removeProperty_of_mem hkey]
      exact h.nodup.filter _
    · rw [order_removeProperty_of_not_mem hkey]
      exact h.nodup
  mem_order := by
    intro k
    rw [mem_iff_isSome, getElem?_removeProperty]
    by_cases hkey : key ∈ x.properties
    · rw [order_removeProperty_of_mem hkey, List.mem_filter, h.mem_order]
      by_cases hk : k = key
      · simp [hk]
      · simp [hk]
    · rw [order_removeProperty_of_not_mem hkey, h.mem_order]
      by_cases hk : k = key
      · simp [hk, hkey]
      · rw [if_neg hk, mem_iff_isSome]
  made := by
    intro k d' hd'
    rw [getElem?_removeProperty] at hd'
    split at hd'
    · cases hd'
    · exact h.made hd'

/-- An update in place changes neither the keys nor the order. -/
theorem Coherent.updateProperty (h : x.Coherent) (key : String) {f : Descriptor → Descriptor}
    (hf : ∀ {d}, d.Made → (f d).Made) : (x.updateProperty key f).Coherent where
  nodup := h.nodup
  mem_order := by
    intro k
    exact h.mem_order.trans Std.HashMap.mem_modify.symm
  made := by
    intro k d' hd'
    rw [getElem?_updateProperty] at hd'
    split at hd'
    · obtain ⟨d, hd, rfl⟩ := Option.map_eq_some_iff.mp hd'
      exact hf (h.made hd)
    · exact h.made hd'

/-! ## Steps -/

/-- The single operations on a record. The bits that they are given are arbitrary. -/
inductive Step (x : Record) : Record → Prop
  | insert (key : String) {d : Descriptor} (hd : d.Made) : Step x (x.insertProperty key d)
  | remove (key : String) : Step x (x.removeProperty key).2
  | assign (key : String) (v : Value) : Step x (x.updateProperty key (·.assign v))
  | watch (key : String) (w : Option Watcher) : Step x (x.updateProperty key (·.watch w))
  | adjust (key : String) (set clear : FlagByte) :
    Step x (x.updateProperty key (·.adjust set clear))
  | link (prototype : Option ObjectId) : Step x { x with prototype }
  | block (blocked colorBlocked : Bool) : Step x { x with blocked, colorBlocked }

/-- Every operation of a record keeps it coherent. -/
theorem Coherent.step (hx : x.Coherent) (h : x.Step y) : y.Coherent := by
  cases h with
  | insert key hd => exact hx.insertProperty key hd
  | remove key => exact hx.removeProperty key
  | assign key v => exact hx.updateProperty key (·.assign v)
  | watch key w => exact hx.updateProperty key (·.watch w)
  | adjust key set clear => exact hx.updateProperty key (·.adjust set clear)
  | link prototype => exact ⟨hx.nodup, hx.mem_order, hx.made⟩
  | block blocked colorBlocked => exact ⟨hx.nodup, hx.mem_order, hx.made⟩

/-- Keys are dropped, and those that stay keep their order; or one that was absent comes last. -/
theorem Step.order (h : x.Step y) (hx : x.Coherent) :
    (∃ p : String → Bool, y.order = x.order.filter p) ∨
      ∃ key, key ∉ x.order ∧ y.order = x.order ++ [key] := by
  have hsame : ∃ p : String → Bool, x.order = x.order.filter p :=
    ⟨fun _ => true, by simp⟩
  cases h with
  | insert key hd =>
    by_cases hkey : key ∈ x.properties
    · rw [order_insertProperty_of_mem hkey]
      exact .inl hsame
    · exact .inr ⟨key, fun hmem => hkey (hx.mem_order.mp hmem),
        order_insertProperty_of_not_mem hkey _⟩
  | remove key =>
    by_cases hkey : key ∈ x.properties
    · exact .inl ⟨_, order_removeProperty_of_mem hkey⟩
    · rw [order_removeProperty_of_not_mem hkey]
      exact .inl hsame
  | assign | watch | adjust | link | block => exact .inl hsame

/-! ## Records and tables -/

/-- The record holds the slots of the table in their order. -/
structure Holds (x : Record) (t : Table String Property) : Prop where
  order : x.order = t.keys
  slots : ∀ key, t.find? key = x.properties[key]?.map Descriptor.property

namespace Holds

variable {t : Table String Property}

theorem mem_iff (h : x.Holds t) : key ∈ x.properties ↔ key ∈ t.keys := by
  rw [← Table.isSome_find?_iff, h.slots, Option.isSome_map, mem_iff_isSome]

/-- Inserting into a record shows as inserting into the table it holds. -/
theorem insertProperty (h : x.Holds t) (key : String) (d : Descriptor) :
    (x.insertProperty key d).Holds (t.insert key d.property) where
  order := by
    by_cases hkey : key ∈ x.properties
    · rw [order_insertProperty_of_mem hkey, Table.keys_insert_of_mem (h.mem_iff.mp hkey), h.order]
    · rw [order_insertProperty_of_not_mem hkey,
        Table.keys_insert_of_not_mem (fun hmem => hkey (h.mem_iff.mpr hmem)), h.order]
  slots := by
    intro k
    rw [Table.find?_insert, getElem?_insertProperty, h.slots]
    split <;> rfl

/-- Removing from a record shows as erasing from the table it holds. -/
theorem removeProperty (h : x.Holds t) (key : String) :
    (x.removeProperty key).2.Holds (t.erase key) where
  order := by
    rw [Table.keys_erase, ← h.order]
    by_cases hkey : key ∈ x.properties
    · exact order_removeProperty_of_mem hkey
    · rw [order_removeProperty_of_not_mem hkey, List.filter_eq_self.mpr]
      rintro k hk
      rw [h.order] at hk
      have hne : k ≠ key := fun heq => hkey (h.mem_iff.mpr (heq ▸ hk))
      simpa using hne
  slots := by
    intro k
    rw [Table.find?_erase, getElem?_removeProperty, h.slots]
    split <;> rfl

/-- Updating shows as modifying, when it does on the descriptor that is there. -/
theorem updateProperty (h : x.Holds t) {f : Descriptor → Descriptor} {g : Property → Property}
    (hfg : ∀ {d}, x.properties[key]? = some d → (f d).property = g d.property) :
    (x.updateProperty key f).Holds (t.modify key g) where
  order := by
    rw [Table.keys_modify]
    exact h.order
  slots := by
    intro k
    rw [Table.find?_modify, getElem?_updateProperty, h.slots]
    split
    · rename_i hk
      subst hk
      cases hd : x.properties[k]? with
      | none => rfl
      | some d => exact congrArg some (hfg hd).symm
    · rfl

/-! ### Loops -/

/-- The flags of several keys change as in the table, one key after the other. -/
theorem setPropertyFlags (h : x.Holds t) (hx : x.Coherent) (keys : List String)
    (set clear : FlagByte) : (x.setPropertyFlags keys set clear).Holds
      (keys.foldl (fun t key => t.modify key (·.adjust set.flags clear.flags)) t) := by
  induction keys generalizing x t with
  | nil => exact h
  | cons key keys ih =>
    exact ih (h.updateProperty fun hd => (hx.made hd).coherent.property_adjust set clear)
      (hx.step (.adjust key set clear))

/-- Removing keys one by one shows as erasing them at once. -/
theorem removeAll (h : x.Holds t) (keys : List String) :
    (x.removeAll keys).Holds (t.eraseWhere (· ∈ keys)) := by
  induction keys generalizing x t with
  | nil =>
    rw [Table.eraseWhere_eq_self fun _ _ => by simp]
    exact h
  | cons key keys ih =>
    have hrest := ih (h.removeProperty key)
    have hsame : (t.erase key).eraseWhere (· ∈ keys) = t.eraseWhere (· ∈ key :: keys) := by
      refine Table.eq_of_entries ?_
      show (t.entries.filter _).filter _ = t.entries.filter _
      rw [List.filter_filter]
      refine List.filter_congr fun e _ => ?_
      simp [Bool.and_comm]
    rwa [hsame] at hrest

/-- Dropping the keys that were looked for drops all that are beyond the length. -/
theorem truncate (h : x.Holds t) (n : Number) : (x.truncate n).Holds
    (t.eraseWhere fun key => (arrayIndex? key).any fun i => Number.le n (.ofNat i)) := by
  have hdropped := h.removeAll
    (x.order.filter fun key => (arrayIndex? key).any fun i => Number.le n (.ofNat i))
  have hsame : (t.eraseWhere fun key => decide (key ∈ x.order.filter fun key =>
      (arrayIndex? key).any fun i => Number.le n (.ofNat i))) =
      t.eraseWhere fun key => (arrayIndex? key).any fun i => Number.le n (.ofNat i) := by
    refine Table.eq_of_entries (List.filter_congr fun e he => ?_)
    have hmem : e.1 ∈ x.order := by
      rw [h.order]
      exact List.mem_map_of_mem he
    simp [hmem]
  rwa [hsame] at hdropped

/-- Elements that are put into a record one after the other are those of a new array. -/
theorem insertElements (h : x.Holds .empty) (elements : List Value) :
    (x.insertElements elements).Holds (Movie.elementSlots elements) := by
  induction elements using List.reverseRecOn with
  | nil => exact h
  | append_singleton elements v ih =>
    have hlast : (x.insertElements (elements ++ [v])) =
        (x.insertElements elements).insertProperty (indexKey elements.length) (.data v .none) := by
      simp [Record.insertElements, insertElement, List.zipIdx_append]
    have hslot : (Descriptor.data v .none).property = .data v {} := Descriptor.property_data v .none
    have hinserted := ih.insertProperty (indexKey elements.length) (.data v .none)
    rwa [hlast, Movie.elementSlots_concat, ← hslot]

/-- Enumeration through the list and the map finds what is in the table. -/
theorem enumerable (h : x.Holds t) (m : Movie) :
    x.enumerable m.settings.caseSensitive =
      (t.entries.filter fun e => e.2.isEnumerable).map fun e => (e.1, m.shownName e.1 e.2) := by
  have hentry : ∀ e ∈ t.entries, x.shown? m.settings.caseSensitive e.1 =
      if e.2.isEnumerable then some (e.1, m.shownName e.1 e.2) else none := by
    intro e he
    have hslot : t.find? e.1 = some e.2 := Table.find?_eq_some_iff.mpr he
    rw [h.slots] at hslot
    obtain ⟨d, hd, heq⟩ := Option.map_eq_some_iff.mp hslot
    have hshown : d.property.isEnumerable = d.isEnumerable := Bool.not_not _
    rw [shown?, hd, ← heq, Movie.shownName, hshown, Option.filter_some]
    cases d.isEnumerable <;> rfl
  have hkeys : x.order = t.entries.map Prod.fst := h.order
  rw [Record.enumerable, hkeys]
  clear hkeys
  generalize t.entries = entries at hentry
  induction entries with
  | nil => rfl
  | cons e entries ih =>
    obtain ⟨hfirst, hrest⟩ := List.forall_mem_cons.mp hentry
    rw [List.map_cons, List.filterMap_cons, hfirst, ih hrest, List.filter_cons]
    cases e.2.isEnumerable <;> rfl

end Holds

/-! ## Runs of steps -/

/-- One record comes from another by operations. -/
def Steps : Record → Record → Prop := Relation.ReflTransGen Step

/-- A loop over operations is a sequence of operations. -/
theorem steps_foldl {ι : Type} {f : Record → ι → Record} (hf : ∀ x i, Step x (f x i))
    (l : List ι) (x : Record) : x.Steps (l.foldl f x) := by
  induction l generalizing x with
  | nil => exact .refl
  | cons i l ih => exact .head (hf x i) (ih (f x i))

/-- What a record holds beside its slots. -/
def rest (x : Record) : Option ObjectId × Kind × Bool × Bool :=
  (x.prototype, x.kind, x.blocked, x.colorBlocked)

/-- A loop leaves the rest of the record when each pass does. -/
theorem rest_foldl {ι : Type} {f : Record → ι → Record} (hf : ∀ x i, (f x i).rest = x.rest)
    (l : List ι) (x : Record) : (l.foldl f x).rest = x.rest := by
  induction l generalizing x with
  | nil => rfl
  | cons i l ih => exact (ih (f x i)).trans (hf x i)

theorem rest_removeAll (keys : List String) (x : Record) : (x.removeAll keys).rest = x.rest :=
  rest_foldl (f := fun x key => (x.removeProperty key).2) (fun _ _ => rfl) keys x

theorem rest_setPropertyFlags (keys : List String) (set clear : FlagByte) (x : Record) :
    (x.setPropertyFlags keys set clear).rest = x.rest :=
  rest_foldl (f := fun x key => x.updateProperty key (·.adjust set clear)) (fun _ _ => rfl) keys x

theorem rest_insertElements (elements : List Value) (x : Record) :
    (x.insertElements elements).rest = x.rest :=
  rest_foldl (f := insertElement) (fun _ _ => rfl) elements.zipIdx x

theorem steps_removeAll (keys : List String) (x : Record) : x.Steps (x.removeAll keys) :=
  steps_foldl (fun _ key => .remove key) keys x

theorem steps_insertElements (elements : List Value) (x : Record) :
    x.Steps (x.insertElements elements) :=
  steps_foldl (f := insertElement) (fun _ e => .insert _ (.data e.1 .none)) elements.zipIdx x

theorem steps_setPropertyFlags (keys : List String) (set clear : FlagByte) (x : Record) :
    x.Steps (x.setPropertyFlags keys set clear) :=
  steps_foldl (fun _ key => .adjust key set clear) keys x

/-! ## Records and objects -/

/-- The record is that of the object. -/
structure Shows (x : Record) (object : Object) : Prop extends x.Holds object.properties where
  prototype : x.prototype = object.prototype
  kind : x.kind = object.kind
  blocked : x.blocked = object.blocked
  colorBlocked : x.colorBlocked = object.colorBlocked

namespace Shows

variable {object : Object}

/-- A new record shows an object without slots. -/
theorem new (prototype : Option ObjectId) (kind : Kind) :
    (Record.new prototype kind).Shows { prototype, kind } where
  order := rfl
  slots := by simp [Record.new]
  prototype := rfl
  kind := rfl
  blocked := rfl
  colorBlocked := rfl

/-- A record whose slots changed shows the object with the table they now hold. -/
theorem of_holds (h : x.Shows object) {t : Table String Property} (hy : y.Holds t)
    (hrest : y.rest = x.rest) : y.Shows { object with properties := t } := by
  simp only [rest, Prod.mk.injEq] at hrest
  obtain ⟨hprototype, hkind, hblocked, hcolorBlocked⟩ := hrest
  exact ⟨hy, hprototype.trans h.prototype, hkind.trans h.kind, hblocked.trans h.blocked,
    hcolorBlocked.trans h.colorBlocked⟩

/-- A record filled with elements shows the array object with those slots. -/
theorem elements (prototype : Option ObjectId) (kind : Kind) (elements : List Value) :
    ((Record.new prototype kind).insertElements elements).Shows
      { prototype, kind, properties := Movie.elementSlots elements } :=
  (new prototype kind).of_holds ((new prototype kind).insertElements elements)
    (rest_insertElements elements _)

/-- What an edit does to the object, operations do to its record. -/
theorem change (h : x.Shows object) (hx : x.Coherent) {f : Object → Object}
    (hf : Object.Change f) : ∃ y, x.Steps y ∧ y.Shows (f object) := by
  cases hf with
  | insert key p =>
    obtain ⟨d, hmade, rfl⟩ := Descriptor.exists_made p
    exact ⟨_, .single (.insert key hmade), h.of_holds (h.insertProperty key d) rfl⟩
  | assign key value =>
    exact ⟨_, .single (.assign key value), h.of_holds (h.updateProperty fun _ => rfl) rfl⟩
  | watch key watcher =>
    exact ⟨_, .single (.watch key watcher), h.of_holds (h.updateProperty fun _ => rfl) rfl⟩
  | adjust key set clear =>
    refine ⟨_, .single (.adjust key set.byte clear.byte), h.of_holds (h.updateProperty ?_) rfl⟩
    intro d hd
    rw [(hx.made hd).coherent.property_adjust, FlagByte.flags_byte, FlagByte.flags_byte]
  | erase key => exact ⟨_, .single (.remove key), h.of_holds (h.removeProperty key) rfl⟩
  | truncate n =>
    exact ⟨x.truncate n, steps_removeAll _ x, h.of_holds (h.truncate n) (rest_removeAll _ x)⟩
  | link prototype =>
    exact ⟨_, .single (.link prototype),
      ⟨⟨h.order, h.slots⟩, rfl, h.kind, h.blocked, h.colorBlocked⟩⟩
  | block blocked colorBlocked =>
    exact ⟨_, .single (.block blocked colorBlocked),
      ⟨⟨h.order, h.slots⟩, h.prototype, h.kind, rfl, rfl⟩⟩

/-- What an operation does to the record, an edit does to the object. -/
theorem step (h : x.Shows object) (hx : x.Coherent) (hstep : x.Step y) :
    ∃ f, Object.Change f ∧ y.Shows (f object) := by
  cases hstep with
  | insert key hd => exact ⟨_, .insert key _, h.of_holds (h.insertProperty key _) rfl⟩
  | remove key => exact ⟨_, .erase key, h.of_holds (h.removeProperty key) rfl⟩
  | assign key v => exact ⟨_, .assign key v, h.of_holds (h.updateProperty fun _ => rfl) rfl⟩
  | watch key w => exact ⟨_, .watch key w, h.of_holds (h.updateProperty fun _ => rfl) rfl⟩
  | adjust key set clear =>
    refine ⟨_, .adjust key set.flags clear.flags, h.of_holds (h.updateProperty fun hd => ?_) rfl⟩
    exact (hx.made hd).coherent.property_adjust set clear
  | link prototype =>
    exact ⟨_, .link prototype, ⟨h.order, h.slots⟩, rfl, h.kind, h.blocked, h.colorBlocked⟩
  | block blocked colorBlocked =>
    exact ⟨_, .block blocked colorBlocked, ⟨h.order, h.slots⟩, h.prototype, h.kind, rfl, rfl⟩

end Shows

end Record

end ActionScript

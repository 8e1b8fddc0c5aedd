import Mathlib.Data.List.Forall2
import Mathlib.Order.Basic
import ActionScript.Error
import ActionScript.Object
import ActionScript.Proofs.Table

/-! # Values and objects that are alike

Two movies may keep the same objects under different handles, and show the same slots by different
spellings. A `Matching` says which handles and spellings stand for each other; values, slots and
objects are alike if they agree in everything else. -/

namespace ActionScript

/-- Which handles and which spellings of two movies stand for each other. -/
structure Matching where
  handle : ObjectId → ObjectId → Prop
  spelling : String → String → Prop

/-- A matching grows by pairs of handles and of spellings. -/
instance : Preorder Matching where
  le r s := (∀ {o p}, r.handle o p → s.handle o p) ∧ ∀ {a b}, r.spelling a b → s.spelling a b
  le_refl _ := ⟨id, id⟩
  le_trans _ _ _ h h' := ⟨h'.1 ∘ h.1, h'.2 ∘ h.2⟩

variable {r s : Matching}

/-! ## Values -/

inductive Value.Alike (r : Matching) : Value → Value → Prop
  | undefined : Alike r .undefined .undefined
  | null : Alike r .null .null
  | bool : Alike r (.bool b) (.bool b)
  | number : Alike r (.number x) (.number x)
  | string : Alike r (.string t) (.string t)
  | object : r.handle o p → Alike r (.object o) (.object p)

/-- Errors are alike if they are equal or scripts threw alike values. -/
inductive Error.Alike (r : Matching) : Error → Error → Prop
  | refl : (∀ v, e ≠ .thrown v) → Alike r e e
  | thrown : Value.Alike r v w → Alike r (.thrown v) (.thrown w)

namespace Value.Alike

/-- Values stay alike when more handles are paired. -/
theorem mono (h : r ≤ s) {v w : Value} (hv : Value.Alike r v w) : Value.Alike s v w := by
  cases hv with
  | object ho => exact .object (h.1 ho)
  | undefined => exact .undefined
  | null => exact .null
  | bool => exact .bool
  | number => exact .number
  | string => exact .string

variable {v w : Value} (hv : Value.Alike r v w)
include hv

/-- Alike values hold paired objects, or none both. -/
theorem object? : Option.Rel r.handle v.object? w.object? := by
  cases hv with
  | object ho => exact .some ho
  | _ => exact .none

theorem isUndefined : v.isUndefined = w.isUndefined := by cases hv <;> rfl

theorem isNull : v.isNull = w.isNull := by cases hv <;> rfl

theorem isNullish : v.isNullish = w.isNullish := by cases hv <;> rfl

theorem isObject : v.isObject = w.isObject := by cases hv <;> rfl

theorem truthy : v.truthy = w.truthy := by cases hv <;> rfl

end Value.Alike

theorem Error.Alike.mono (h : r ≤ s) {e f : Error} (he : Error.Alike r e f) :
    Error.Alike s e f := by
  cases he with
  | refl hne => exact .refl hne
  | thrown hv => exact .thrown (hv.mono h)

/-! ## Optional data and tables -/

theorem optionRel_mono {α β : Type} {p q : α → β → Prop} (h : ∀ {a b}, p a b → q a b)
    {x : Option α} {y : Option β} (hxy : Option.Rel p x y) : Option.Rel q x y := by
  cases hxy with
  | some hab => exact .some (h hab)
  | none => exact .none

/-- Related options are both there and related, or both missing. -/
theorem optionRel_cases {α β : Type} {p : α → β → Prop} {x : Option α} {y : Option β}
    (hxy : Option.Rel p x y) : (∃ a b, x = some a ∧ y = some b ∧ p a b) ∨ x = none ∧ y = none := by
  cases hxy with
  | some hab => exact .inl ⟨_, _, rfl, rfl, hab⟩
  | none => exact .inr ⟨rfl, rfl⟩

theorem optionRel_isSome {α β : Type} {p : α → β → Prop} {x : Option α} {y : Option β}
    (hxy : Option.Rel p x y) : x.isSome = y.isSome := by
  cases hxy <;> rfl

theorem optionRel_isNone {α β : Type} {p : α → β → Prop} {x : Option α} {y : Option β}
    (hxy : Option.Rel p x y) : x.isNone = y.isNone := by
  cases hxy <;> rfl

/-- Binding keeps options related when the continuations do. -/
theorem optionRel_bind {α β γ δ : Type} {p : α → β → Prop} {q : γ → δ → Prop}
    {x : Option α} {y : Option β} {f : α → Option γ} {g : β → Option δ}
    (hxy : Option.Rel p x y) (hfg : ∀ {a b}, p a b → Option.Rel q (f a) (g b)) :
    Option.Rel q (x.bind f) (y.bind g) := by
  cases hxy with
  | some hab => exact hfg hab
  | none => exact .none

theorem optionRel_eq {α : Type} {x y : Option α} (hxy : Option.Rel Eq x y) : x = y := by
  cases hxy with
  | some hab => rw [hab]
  | none => rfl

namespace Table

variable {κ κ' ν ν' : Type} {a : κ → κ' → Prop} {b : ν → ν' → Prop}

/-- Tables are alike if their entries are, one by one. -/
def Alike (a : κ → κ' → Prop) (b : ν → ν' → Prop) (t : Table κ ν) (t' : Table κ' ν') : Prop :=
  List.Forall₂ (fun e e' => a e.1 e'.1 ∧ b e.2 e'.2) t.entries t'.entries

theorem Alike.mono {a' : κ → κ' → Prop} {b' : ν → ν' → Prop} (ha : ∀ {k k'}, a k k' → a' k k')
    (hb : ∀ {v v'}, b v v' → b' v v') {t : Table κ ν} {t' : Table κ' ν'} (h : Alike a b t t') :
    Alike a' b' t t' :=
  List.Forall₂.imp (fun _ _ he => ⟨ha he.1, hb he.2⟩) h

/-- Alike tables list related keys in the same order. -/
theorem Alike.keys {t : Table κ ν} {t' : Table κ' ν'} (h : Alike a b t t') :
    List.Forall₂ a t.keys t'.keys := by
  simp only [Table.keys, List.forall₂_map_left_iff, List.forall₂_map_right_iff]
  exact List.Forall₂.imp (fun _ _ he => he.1) h

/-- Tables alike under equality of keys list the same keys. -/
theorem Alike.keys_eq {t : Table κ ν} {t' : Table κ ν'} (h : Alike Eq b t t') :
    t.keys = t'.keys := by
  have hkeys := h.keys
  rwa [List.forall₂_eq_eq_eq] at hkeys

/-- Alike tables list related values in the same order. -/
theorem Alike.values {t : Table κ ν} {t' : Table κ' ν'} (h : Alike a b t t') :
    List.Forall₂ b t.values t'.values := by
  simp only [Table.values, List.forall₂_map_left_iff, List.forall₂_map_right_iff]
  exact List.Forall₂.imp (fun _ _ he => he.2) h

theorem Alike.eraseWhere {t : Table κ ν} {t' : Table κ ν'} (h : Alike Eq b t t')
    (p : κ → Bool) : Alike Eq b (t.eraseWhere p) (t'.eraseWhere p) := by
  refine List.rel_filter (fun e e' he => ?_) h
  show (!p e.1) = true ↔ (!p e'.1) = true
  rw [he.1]

variable [DecidableEq κ] [DecidableEq κ']

/-- Looking up related keys finds related values: the key relation pairs each key with one other. -/
theorem Alike.find? (ha : Relator.BiUnique a) {t : Table κ ν} {t' : Table κ' ν'}
    (h : Alike a b t t') {k : κ} {k' : κ'} (hk : a k k') :
    Option.Rel b (t.find? k) (t'.find? k') := by
  obtain ⟨entries, _⟩ := t
  obtain ⟨entries', _⟩ := t'
  show Option.Rel b (entries.lookup k) (entries'.lookup k')
  change List.Forall₂ _ entries entries' at h
  induction h with
  | nil => exact .none
  | @cons e e' entries entries' he _ ih =>
    have hiff : k = e.1 ↔ k' = e'.1 := Relator.rel_eq ha hk he.1
    rw [List.lookup_cons, List.lookup_cons]
    by_cases hkey : k = e.1
    · rw [beq_iff_eq.mpr hkey, beq_iff_eq.mpr (hiff.mp hkey)]
      exact .some he.2
    · rw [beq_false_of_ne hkey, beq_false_of_ne (mt hiff.mpr hkey)]
      exact ih (List.nodup_cons.mp ‹_›).2 (List.nodup_cons.mp ‹_›).2

/-- Changing the entries of related keys alike keeps the tables alike. -/
theorem Alike.modify (ha : Relator.BiUnique a) {t : Table κ ν} {t' : Table κ' ν'}
    (h : Alike a b t t') {k : κ} {k' : κ'} (hk : a k k') {f : ν → ν} {f' : ν' → ν'}
    (hf : ∀ {v v'}, b v v' → b (f v) (f' v')) : Alike a b (t.modify k f) (t'.modify k' f') := by
  refine List.rel_map (fun e e' he => ?_) h
  have hiff := Relator.rel_eq ha he.1 hk
  by_cases hkey : e.1 = k
  · rw [if_pos hkey, if_pos (hiff.mp hkey)]
    exact ⟨he.1, hf he.2⟩
  · rw [if_neg hkey, if_neg (mt hiff.mpr hkey)]
    exact he

/-- Inserting related values under related keys keeps the tables alike, whether the key was there or
not. -/
theorem Alike.insert (ha : Relator.BiUnique a) {t : Table κ ν} {t' : Table κ' ν'}
    (h : Alike a b t t') {k : κ} {k' : κ'} (hk : a k k') {v : ν} {v' : ν'} (hv : b v v') :
    Alike a b (t.insert k v) (t'.insert k' v') := by
  have hiff : k ∈ t.keys ↔ k' ∈ t'.keys := by
    rw [← isSome_find?_iff, ← isSome_find?_iff, optionRel_isSome (h.find? ha hk)]
  by_cases hmem : k ∈ t.keys
  · rw [Table.insert, Table.insert, dif_pos hmem, dif_pos (hiff.mp hmem)]
    exact h.modify ha hk fun _ => hv
  · rw [Table.insert, Table.insert, dif_neg hmem, dif_neg (mt hiff.mpr hmem)]
    exact List.rel_append h (.cons ⟨hk, hv⟩ .nil)

/-- Erasing related keys keeps the tables alike. -/
theorem Alike.erase (ha : Relator.BiUnique a) {t : Table κ ν} {t' : Table κ' ν'}
    (h : Alike a b t t') {k : κ} {k' : κ'} (hk : a k k') :
    Alike a b (t.erase k) (t'.erase k') := by
  refine List.rel_filter (fun e e' he => ?_) h
  have hiff := Relator.rel_eq ha he.1 hk
  simp only [ne_eq, decide_eq_true_eq, hiff]

end Table

theorem biUnique_eq {α : Type} : Relator.BiUnique (Eq : α → α → Prop) :=
  ⟨fun _ _ _ h h' => h.trans h'.symm, fun _ _ _ h h' => h.symm.trans h'⟩

/-! ## Slots and objects -/

structure Watcher.Alike (r : Matching) (w w' : Watcher) : Prop where
  name : w.name = w'.name
  callback : r.handle w.callback w'.callback
  userData : Value.Alike r w.userData w'.userData

inductive Access.Alike (r : Matching) : Access → Access → Prop
  | data : Alike r (.data readOnly) (.data readOnly)
  | accessor : Option.Rel r.handle getter getter' → Option.Rel r.handle setter setter' →
    Alike r (.accessor getter setter) (.accessor getter' setter')

structure Property.Alike (r : Matching) (p p' : Property) : Prop where
  access : Access.Alike r p.access p'.access
  value : Value.Alike r p.value p'.value
  dontEnum : p.dontEnum = p'.dontEnum
  dontDelete : p.dontDelete = p'.dontDelete
  watcher : Option.Rel (Watcher.Alike r) p.watcher p'.watcher
  spelling : Option.Rel r.spelling p.spelling p'.spelling

structure Object.Alike (r : Matching) (x x' : Object) : Prop where
  properties : Table.Alike Eq (Property.Alike r) x.properties x'.properties
  prototype : Option.Rel r.handle x.prototype x'.prototype
  kind : x.kind = x'.kind
  blocked : x.blocked = x'.blocked
  colorBlocked : x.colorBlocked = x'.colorBlocked

theorem Watcher.Alike.mono (h : r ≤ s) {w w' : Watcher} (hw : Watcher.Alike r w w') :
    Watcher.Alike s w w' :=
  ⟨hw.name, h.1 hw.callback, hw.userData.mono h⟩

theorem Access.Alike.mono (h : r ≤ s) {a a' : Access} (ha : Access.Alike r a a') :
    Access.Alike s a a' := by
  cases ha with
  | data => exact .data
  | accessor hg hs => exact .accessor (optionRel_mono h.1 hg) (optionRel_mono h.1 hs)

namespace Property.Alike

theorem mono (h : r ≤ s) {p p' : Property} (hp : Property.Alike r p p') :
    Property.Alike s p p' where
  access := hp.access.mono h
  value := hp.value.mono h
  dontEnum := hp.dontEnum
  dontDelete := hp.dontDelete
  watcher := optionRel_mono (Watcher.Alike.mono h) hp.watcher
  spelling := optionRel_mono h.2 hp.spelling

theorem data {v v' : Value} (hv : Value.Alike r v v') (flags : Flags) :
    Property.Alike r (.data v flags) (.data v' flags) :=
  ⟨.data, hv, rfl, rfl, .none, .none⟩

theorem accessor {getter getter' setter setter' : Option ObjectId}
    (hg : Option.Rel r.handle getter getter') (hs : Option.Rel r.handle setter setter')
    (flags : Flags) :
    Property.Alike r (.accessor getter setter flags) (.accessor getter' setter' flags) :=
  ⟨.accessor hg hs, .undefined, rfl, rfl, .none, .none⟩

variable {p p' : Property} (hp : Property.Alike r p p')
include hp

/-- Alike properties are both data with the same guard, or both accessors with paired functions. -/
theorem access_cases :
    (∃ readOnly, p.access = .data readOnly ∧ p'.access = .data readOnly) ∨
      ∃ getter getter' setter setter', p.access = .accessor getter setter ∧
        p'.access = .accessor getter' setter' ∧ Option.Rel r.handle getter getter' ∧
        Option.Rel r.handle setter setter' := by
  obtain ⟨access, _⟩ := p
  obtain ⟨access', _⟩ := p'
  cases hp.access with
  | data => exact .inl ⟨_, rfl, rfl⟩
  | accessor hg hs => exact .inr ⟨_, _, _, _, rfl, rfl, hg, hs⟩

theorem isData : p.isData = p'.isData := by
  rcases hp.access_cases with ⟨_, h, h'⟩ | ⟨_, _, _, _, h, h', _⟩ <;>
    rw [Property.isData, Property.isData, h, h']

theorem isAccessor : p.isAccessor = p'.isAccessor := by
  rw [Property.isAccessor, Property.isAccessor, hp.isData]

theorem isReadOnly : p.isReadOnly = p'.isReadOnly := by
  rcases hp.access_cases with ⟨_, h, h'⟩ | ⟨_, _, _, _, h, h', _⟩ <;>
    rw [Property.isReadOnly, Property.isReadOnly, h, h']

theorem isEnumerable : p.isEnumerable = p'.isEnumerable := by
  rw [Property.isEnumerable, Property.isEnumerable, hp.dontEnum]

theorem isDeletable : p.isDeletable = p'.isDeletable := by
  rw [Property.isDeletable, Property.isDeletable, hp.dontDelete]

theorem isWritable : p.isWritable = p'.isWritable := by
  rw [Property.isWritable, Property.isWritable]
  rcases hp.access_cases with ⟨_, h, h'⟩ | ⟨_, _, _, _, h, h', _, hs⟩
  · rw [h, h']
  · rw [h, h']
    exact optionRel_isSome hs

theorem flags : p.flags = p'.flags := by
  rw [Property.flags, Property.flags, hp.isReadOnly, hp.isData, hp.isAccessor, hp.dontEnum,
    hp.dontDelete]

theorem getter : Option.Rel r.handle p.getter p'.getter := by
  rw [Property.getter, Property.getter]
  rcases hp.access_cases with ⟨_, h, h'⟩ | ⟨_, _, _, _, h, h', hg, _⟩
  · rw [h, h']
    exact .none
  · rw [h, h']
    exact hg

theorem setter : Option.Rel r.handle p.setter p'.setter := by
  rw [Property.setter, Property.setter]
  rcases hp.access_cases with ⟨_, h, h'⟩ | ⟨_, _, _, _, h, h', _, hs⟩
  · rw [h, h']
    exact .none
  · rw [h, h']
    exact hs

/-- Alike properties refer to paired objects, in the same order. -/
theorem references : List.Forall₂ r.handle p.references p'.references := by
  have hoption : ∀ {x y : Option ObjectId}, Option.Rel r.handle x y →
      List.Forall₂ r.handle x.toList y.toList := by
    intro x y hxy
    cases hxy with
    | some ho => exact .cons ho .nil
    | none => exact .nil
  have hvalue := hoption hp.value.object?
  refine List.rel_append (List.rel_append (List.rel_append hvalue ?_) ?_) ?_
  · exact hoption hp.getter
  · exact hoption hp.setter
  · rcases optionRel_cases hp.watcher with ⟨w, w', hw, hw', hwatcher⟩ | ⟨hw, hw'⟩
    · rw [hw, hw']
      exact .cons hwatcher.callback (hoption hwatcher.userData.object?)
    · rw [hw, hw']
      exact .nil

theorem withValue {v v' : Value} (hv : Value.Alike r v v') :
    Property.Alike r { p with value := v } { p' with value := v' } :=
  { hp with value := hv }

theorem withWatcher {w w' : Option Watcher} (hw : Option.Rel (Watcher.Alike r) w w') :
    Property.Alike r { p with watcher := w } { p' with watcher := w' } :=
  { hp with watcher := hw }

/-- Setting and clearing the same flags keeps properties alike. -/
theorem adjust (set clear : Flags) :
    Property.Alike r (p.adjust set clear) (p'.adjust set clear) where
  access := by
    rw [Property.adjust, Property.adjust]
    rcases hp.access_cases with ⟨_, h, h'⟩ | ⟨_, _, _, _, h, h', hg, hs⟩
    · simp only [h, h']
      exact .data
    · simp only [h, h']
      exact .accessor hg hs
  value := hp.value
  dontEnum := by simp only [Property.adjust, hp.dontEnum]
  dontDelete := by simp only [Property.adjust, hp.dontDelete]
  watcher := hp.watcher
  spelling := hp.spelling

end Property.Alike

namespace Object.Alike

theorem mono (h : r ≤ s) {x x' : Object} (hx : Object.Alike r x x') : Object.Alike s x x' where
  properties := hx.properties.mono id (Property.Alike.mono h)
  prototype := optionRel_mono h.1 hx.prototype
  kind := hx.kind
  blocked := hx.blocked
  colorBlocked := hx.colorBlocked

variable {x x' : Object} (hx : Object.Alike r x x')
include hx

/-- Alike objects run the same code when they are called. -/
theorem callable? : x.callable? = x'.callable? := by
  rw [Object.callable?, Object.callable?, hx.kind]

theorem isArray : x.isArray = x'.isArray := by
  rw [Object.isArray, Object.isArray, hx.kind]

/-- Alike objects refer to objects that stand for each other, in the same order. -/
theorem references : List.Forall₂ r.handle x.references x'.references := by
  refine List.rel_append ?_ (List.rel_flatMap hx.properties.values fun _ _ hp => hp.references)
  rcases optionRel_cases hx.prototype with ⟨o, o', ho, ho', hprototype⟩ | ⟨ho, ho'⟩
  · rw [ho, ho']
    exact .cons hprototype .nil
  · rw [ho, ho']
    exact .nil

theorem find? (key : String) :
    Option.Rel (Property.Alike r) (x.properties.find? key) (x'.properties.find? key) :=
  hx.properties.find? biUnique_eq rfl

end Object.Alike

end ActionScript
